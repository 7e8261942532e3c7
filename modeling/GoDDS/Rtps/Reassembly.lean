import GoDDS.Rtps.Assembler

/-!
# What reassembly returns

A fragment that agrees with a buffer (`Agrees`) is copied to its place (`Agrees.copyLoop`).
-/

namespace GoDDS

open ByteCodec Go Table Nat List Run UInt16 FragBuffer
open List (mem_append mem_append_left mem_singleton)

/-! ## Fragments that agree with their buffer -/

variable {b : FragBuffer} {k off : ℕ}

namespace DataFrag

def first (f : DataFrag) : ℕ := f.fragmentStartingNum.toNat - 1

def count (f : DataFrag) : ℕ := (f.dataSize.toNat + f.fragmentSize.toNat - 1) / f.fragmentSize.toNat

/-- The payload is as long as the fragments it carries; the last one of the data may be shorter. -/
def Covers (f : DataFrag) : Prop :=
  min (f.fragmentsInSubmsg.toNat * f.fragmentSize.toNat)
    (f.dataSize.toNat - f.first * f.fragmentSize.toNat) ≤ f.payload.length % 2 ^ 32
  deriving Decidable

/-- The fragment passes the checks, covers what it carries, and has the geometry of the buffer. -/
structure Agrees (f : DataFrag) (b : FragBuffer) : Prop where
  accepted : f.accepted = true
  covers : f.Covers
  size : b.data.length = f.dataSize.toNat
  total : b.total.toNat = f.count

variable {f : DataFrag} {b : FragBuffer}

theorem toNat_total (hacc : f.accepted) : f.total.toNat = f.count := by
  obtain ⟨hS, -, -, -, hmax⟩ := accepted_iff.1 hacc
  have hlt := f.fragmentSize.toNat_lt
  rw [maxReassemblyBytes] at hmax
  have hsum : (f.dataSize + f.fragmentSize.toUInt32 - 1).toNat =
      f.dataSize.toNat + f.fragmentSize.toNat - 1 := by
    have hadd : (f.dataSize + f.fragmentSize.toUInt32).toNat =
        f.dataSize.toNat + f.fragmentSize.toNat := by
      rw [UInt32.toNat_add, toNat_fragmentSize]
      omega
    rw [UInt32.toNat_sub_of_le, hadd]
    · rfl
    · rw [UInt32.le_iff_toNat_le, hadd]
      show 1 ≤ _
      omega
  rw [total, UInt32.toNat_div, hsum, toNat_fragmentSize]
  rfl

theorem lt_count_iff (hS : f.fragmentSize.toNat ≠ 0) :
    k < f.count ↔ k * f.fragmentSize.toNat < f.dataSize.toNat := by
  rw [count, lt_div_iff_mul_lt (by omega)]
  omega

theorem div_lt_count (hS : f.fragmentSize.toNat ≠ 0) (h : off < f.dataSize.toNat) :
    off / f.fragmentSize.toNat < f.count :=
  (lt_count_iff hS).2 (lt_of_le_of_lt (div_mul_le_self _ _) h)

theorem toNat_fragIndex (hstart : f.fragmentStartingNum.toNat ≠ 0) {i : ℕ}
    (h : f.first + i < 2 ^ 32) : (f.fragIndex i).toNat = f.first + i := by
  have hsub : (f.fragmentStartingNum - 1).toNat = f.first := by
    rw [UInt32.toNat_sub_of_le]
    · rfl
    · rw [UInt32.le_iff_toNat_le]
      show 1 ≤ _
      omega
  rw [fragIndex, UInt32.toNat_add, hsub, UInt32.toNat_ofNat']
  omega

end DataFrag

/-- `b'` is `b` with the fragments of `f` from index `lo` up to `hi` stored, where they were
missing. -/
structure Stored (f : DataFrag) (lo hi : ℕ) (b b' : FragBuffer) : Prop where
  total : b'.total = b.total
  created : b'.created = b.created
  length : b'.data.length = b.data.length
  seen : ∀ k, b'.isSeen k = true ↔
    b.isSeen k = true ∨ lo ≤ k ∧ k < hi ∧ k < b.total.toNat
  data : ∀ off < f.dataSize.toNat, b'.data[off]? =
    if b.isSeen (off / f.fragmentSize.toNat) = false ∧ lo ≤ off / f.fragmentSize.toNat ∧
        off / f.fragmentSize.toNat < hi
      then f.payload[off - f.first * f.fragmentSize.toNat]? else b.data[off]?

namespace Stored

variable {f : DataFrag} {b b' : FragBuffer} {lo hi : ℕ}

theorem refl_of (hS : f.fragmentSize.toNat ≠ 0) (htotal : b.total.toNat = f.count)
    (h : ∀ k, lo ≤ k → k < hi → k < b.total.toNat → b.isSeen k) : Stored f lo hi b b := by
  refine ⟨rfl, rfl, rfl, fun k => ⟨.inl, ?_⟩, fun off hoff => (if_neg ?_).symm⟩
  · rintro (hk | ⟨hlo, hhi, hk⟩)
    · exact hk
    · exact h k hlo hhi hk
  · rintro ⟨hnew, hlo, hhi⟩
    have hlt := DataFrag.div_lt_count hS hoff
    rw [h _ hlo hhi (by omega)] at hnew
    cases hnew

theorem trans {b₁ b₂ : FragBuffer} {mid : ℕ} (h₁ : Stored f lo mid b b₁)
    (h₂ : Stored f mid hi b₁ b₂) (hlo : lo ≤ mid) (hhi : mid ≤ hi) : Stored f lo hi b b₂ := by
  refine ⟨h₂.total.trans h₁.total, h₂.created.trans h₁.created, h₂.length.trans h₁.length,
    fun k => ?_, fun off hoff => ?_⟩
  · rw [h₂.seen, h₁.seen, h₁.total]
    constructor
    · rintro ((h | h) | h)
      · exact .inl h
      · exact .inr ⟨h.1, by omega, h.2.2⟩
      · exact .inr ⟨by omega, h.2⟩
    · rintro (h | ⟨hk, hk', hkn⟩)
      · exact .inl (.inl h)
      · rcases lt_or_ge k mid with hm | hm
        · exact .inl (.inr ⟨hk, hm, hkn⟩)
        · exact .inr ⟨hm, hk', hkn⟩
  · rw [h₂.data off hoff, h₁.data off hoff]
    generalize hq : off / f.fragmentSize.toNat = q
    rcases lt_or_ge q mid with hm | hm
    · rw [if_neg (show ¬ (b₁.isSeen q = false ∧ mid ≤ q ∧ q < hi) by omega)]
      exact if_congr ⟨fun h => ⟨h.1, h.2.1, by omega⟩, fun h => ⟨h.1, h.2.1, hm⟩⟩ rfl rfl
    · have hsame : b₁.isSeen q = false ↔ b.isSeen q = false := by
        have := h₁.seen q
        rw [← not_iff_not, Bool.not_eq_false, Bool.not_eq_false, this]
        exact ⟨fun h => h.resolve_right fun h => by omega, .inl⟩
      rw [if_neg (show ¬ (b.isSeen q = false ∧ lo ≤ q ∧ q < mid) by omega)]
      exact if_congr ⟨fun h => ⟨hsame.1 h.1, by omega, h.2.2⟩,
        fun h => ⟨hsame.2 h.1, hm, h.2.2⟩⟩ rfl rfl

end Stored

/-! ## What the copying loop does with them -/

namespace DataFrag.Agrees

variable {f : DataFrag} {b b' : FragBuffer} {i n : ℕ}

theorem of_stored {lo hi : ℕ} (h : f.Agrees b) (hst : Stored f lo hi b b') : f.Agrees b' :=
  ⟨h.accepted, h.covers, hst.length.trans h.size, by rw [hst.total]; exact h.total⟩

theorem fragmentSize_ne (h : f.Agrees b) : f.fragmentSize.toNat ≠ 0 := (accepted_iff.1 h.accepted).1

theorem count_le (h : f.Agrees b) : f.count ≤ 2 ^ 25 := by
  obtain ⟨hS, -, -, -, hmax⟩ := accepted_iff.1 h.accepted
  have hlt := f.fragmentSize.toNat_lt
  rw [maxReassemblyBytes] at hmax
  exact (div_le_self _ _).trans (by omega)

theorem toNat_offset (h : f.Agrees b) (hindex : (f.fragIndex i).toNat = f.first + i)
    (hin : f.first + i < f.count) : (f.offset i).toNat = (f.first + i) * f.fragmentSize.toNat := by
  have hlt := (lt_count_iff h.fragmentSize_ne).1 hin
  have := f.dataSize.toNat_lt
  rw [offset, UInt32.toNat_mul, hindex, toNat_fragmentSize]
  exact Nat.mod_eq_of_lt (by omega)

theorem piece_le (h : f.Agrees b) (hi : i < f.fragmentsInSubmsg.toNat)
    (hin : f.first + i < f.count) : i * f.fragmentSize.toNat + min f.fragmentSize.toNat
      (f.dataSize.toNat - (f.first + i) * f.fragmentSize.toNat) ≤ f.payload.length % 2 ^ 32 := by
  refine le_trans ?_ h.covers
  have hlt := (lt_count_iff h.fragmentSize_ne).1 hin
  have hN : (i + 1) * f.fragmentSize.toNat ≤ f.fragmentsInSubmsg.toNat * f.fragmentSize.toNat :=
    mul_le_mul_right _ hi
  rw [add_mul] at hlt ⊢
  rw [succ_mul] at hN
  omega

theorem getElem?_copied (h : f.Agrees b) (hi : i < f.fragmentsInSubmsg.toNat)
    (hin : f.first + i < f.count) (hindex : (f.fragIndex i).toNat = f.first + i)
    (hoff : f.offset i < f.dataSize) (hlt : off < f.dataSize.toNat) :
    (copied f b i)[off]? = if off / f.fragmentSize.toNat = f.first + i
      then f.payload[off - f.first * f.fragmentSize.toNat]? else b.data[off]? := by
  have hN := f.fragmentsInSubmsg.toNat_lt
  have hpos : 0 < f.fragmentSize.toNat := pos_of_ne_zero h.fragmentSize_ne
  have hpiece := h.piece_le hi hin
  have hmod := mod_le f.payload.length (2 ^ 32)
  have hoffset := h.toNat_offset hindex hin
  have hin' := (lt_count_iff h.fragmentSize_ne).1 hin
  have hstart := f.toNat_fragStart (i := i) (by omega)
  have hend := f.toNat_fragEnd (i := i) (by omega)
  have hcopy := toNat_copyEnd h.accepted (by omega) hoff (by omega)
  have hblock : off / f.fragmentSize.toNat = f.first + i ↔
      (f.first + i) * f.fragmentSize.toNat ≤ off ∧
        off < (f.first + i) * f.fragmentSize.toNat + f.fragmentSize.toNat := by
    rw [Nat.div_eq_iff hpos]
    omega
  have hbuffer : (f.offset i).toNat ≤ b.data.length := by rw [h.size, hoffset]; omega
  have hsplit : (f.first + i) * f.fragmentSize.toNat =
      f.first * f.fragmentSize.toNat + i * f.fragmentSize.toNat := add_mul _ _ _
  have hlen : (slice f.payload (f.fragStart i).toNat (f.fragEnd i).toNat).length =
      min f.fragmentSize.toNat (f.payload.length % 2 ^ 32 - i * f.fragmentSize.toNat) := by
    rw [length_slice (by omega), hstart, hend]
    omega
  rw [copied, getElem?_overwrite hbuffer, hlen, hcopy, hoffset, hstart, hend]
  by_cases hq : off / f.fragmentSize.toNat = f.first + i
  · obtain ⟨hlo, hhi⟩ := hblock.1 hq
    rw [if_pos hq, if_pos (by omega), getElem?_slice (by omega)]
    congr 1
    omega
  · rw [if_neg hq, if_neg]
    rintro ⟨hlo, hhi⟩
    exact hq (hblock.2 ⟨hlo, by omega⟩)

theorem copyFragment (h : f.Agrees b) (hi : i < f.fragmentsInSubmsg.toNat)
    (hfit : f.first + i < 2 ^ 32) : (GoDDS.copyFragment f b i = .stop ∧ f.count ≤ f.first + i) ∨
      f.first + i < f.count ∧ ∃ b', GoDDS.copyFragment f b i = .next b' ∧
        Stored f (f.first + i) (f.first + i + 1) b b' := by
  have hS := h.fragmentSize_ne
  have hN := f.fragmentsInSubmsg.toNat_lt
  have hindex := toNat_fragIndex (accepted_iff.1 h.accepted).2.2.2.1 hfit
  have hplace : f.fragIndex i ≥ b.total ↔ f.count ≤ f.first + i := by
    rw [ge_iff_le, UInt32.le_iff_toNat_le, h.total, hindex]
  unfold GoDDS.copyFragment
  split_ifs with hout hseen hpast hslices
  · exact .inl ⟨rfl, hplace.1 hout⟩
  all_goals refine .inr ⟨not_le.1 fun hle => hout (hplace.2 hle), ?_⟩
  all_goals have hin : f.first + i < f.count := not_le.1 fun hle => hout (hplace.2 hle)
  all_goals rw [hindex] at hseen
  · refine ⟨b, rfl, Stored.refl_of hS h.total fun k hlo hhi _ => ?_⟩
    rwa [show k = f.first + i by omega]
  all_goals have hoffset := h.toNat_offset hindex hin
  · exfalso
    have := (lt_count_iff hS).1 hin
    rw [ge_iff_le, UInt32.le_iff_toNat_le, hoffset] at hpast
    omega
  all_goals have hpiece := h.piece_le hi hin
  all_goals have hoff : f.offset i < f.dataSize := UInt32.not_le.1 hpast
  · exfalso
    rw [← Bool.not_eq_true, slicesOk_iff h.accepted (by omega) hoff] at hslices
    exact hslices ⟨by omega, by rw [h.size]; exact min_le_right _ _⟩
  · have hok : slicesOk f b i = true := by simpa using hslices
    refine ⟨_, rfl, rfl, rfl, length_copied hok, fun k => ?_, fun off hlt => ?_⟩
    · have hplace : f.first + i < b.total.toNat := by rw [h.total]; exact hin
      rw [isSeen_store, hindex, Bool.or_eq_true, decide_eq_true_iff]
      constructor
      · rintro (rfl | hk)
        · exact .inr ⟨le_rfl, by omega, hplace⟩
        · exact .inl hk
      · rintro (hk | ⟨hlo, hhi, -⟩)
        · exact .inr hk
        · exact .inl (by omega)
    · refine (h.getElem?_copied hi hin hindex hoff hlt).trans (if_congr ?_ rfl rfl)
      constructor
      · intro hq
        rw [hq]
        exact ⟨by simpa using hseen, le_rfl, by omega⟩
      · rintro ⟨-, hlo, hhi⟩
        omega

theorem copyLoop_from (h : f.Agrees b) (hn : i + n ≤ f.fragmentsInSubmsg.toNat)
    (hfit : f.first + i < 2 ^ 32) : ∃ b', GoDDS.copyLoop f n i b = (b', false) ∧
      Stored f (f.first + i) (f.first + i + n) b b' := by
  induction n generalizing i b with
  | zero => exact ⟨b, rfl, Stored.refl_of h.fragmentSize_ne h.total fun k hlo hhi _ => by omega⟩
  | succ n ih =>
    rw [GoDDS.copyLoop]
    rcases h.copyFragment (by omega) hfit with ⟨hstep, hout⟩ | ⟨hin, b₁, hstep, hst⟩
    · rw [hstep]
      refine ⟨b, rfl, Stored.refl_of h.fragmentSize_ne h.total fun k hlo _ hk => ?_⟩
      rw [h.total] at hk
      omega
    · rw [hstep]
      have hcount := h.count_le
      obtain ⟨b', hloop, hst'⟩ := ih (h.of_stored hst) (i := i + 1) (by omega) (by omega)
      rw [show f.first + i + (n + 1) = f.first + (i + 1) + n by omega]
      exact ⟨b', hloop, hst.trans hst' (by omega) (by omega)⟩

theorem copyLoop (h : f.Agrees b) :
    ∃ b', GoDDS.copyLoop f f.fragmentsInSubmsg.toNat 0 b = (b', false) ∧
      Stored f f.first (f.first + f.fragmentsInSubmsg.toNat) b b' := by
  have := f.fragmentStartingNum.toNat_lt
  exact h.copyLoop_from (i := 0) (by omega) (by unfold first; omega)

end DataFrag.Agrees

namespace FragmentAssembler

variable {fa : FragmentAssembler} {f : DataFrag} {now : Int}

theorem receive_agrees (h : f.Agrees (fa.bufferFor f now)) :
    ∃ b', Stored f f.first (f.first + f.fragmentsInSubmsg.toNat) (fa.bufferFor f now) b' ∧
      fa.receive f now = if b'.received ≥ b'.total
          then (erase (set (fa.evict now) f.key b') f.key, .payload b'.data)
          else (set (fa.evict now) f.key b', .nothing) := by
  obtain ⟨b', hloop, hst⟩ := h.copyLoop
  refine ⟨b', hst, ?_⟩
  rw [receive, if_neg (by simp [h.accepted]), hloop]
  rfl

theorem receive_other {key : FragKey} (h : f.key ≠ key) :
    (fa.receive f now).1 key = fa key ∨ (fa.receive f now).1 key = fa.evict now key := by
  unfold receive
  dsimp only
  split_ifs
  · exact .inl rfl
  · exact .inr (set_ne _ _ h.symm)
  · exact .inr ((erase_ne _ h.symm).trans (set_ne _ _ h.symm))
  · exact .inr (set_ne _ _ h.symm)

theorem evict_eq_some {key : FragKey} :
    fa.evict now key = some b ↔ fa key = some b ∧ now - b.created ≤ staleFragAge := by
  rw [evict, filter_apply, Option.filter_eq_some_iff]
  simp

end FragmentAssembler

/-! ## Where the bytes come from -/

def DataFrag.Supplies (f : DataFrag) (off : ℕ) (v : UInt8) : Prop :=
  f.first * f.fragmentSize.toNat ≤ off ∧
    off < (f.first + f.fragmentsInSubmsg.toNat) * f.fragmentSize.toNat ∧
    f.payload[off - f.first * f.fragmentSize.toNat]? = some v
  deriving Decidable

/-- A buffer for `D` bytes in fragments of `S`, whose bytes were all brought by fragments of `A`. -/
structure FilledFrom (A : Set DataFrag) (D S : ℕ) (b : FragBuffer) : Prop where
  size : b.data.length = D
  total : b.total.toNat = (D + S - 1) / S
  bytes : ∀ off < D, b.isSeen (off / S) = true →
    ∃ g ∈ A, ∃ v, b.data[off]? = some v ∧ g.Supplies off v

namespace FilledFrom

variable {A : Set DataFrag} {D S : ℕ} {b b' : FragBuffer} {f : DataFrag}

theorem mono {B : Set DataFrag} (h : FilledFrom A D S b) (hAB : A ⊆ B) : FilledFrom B D S b :=
  ⟨h.size, h.total, fun off hoff hseen =>
    let ⟨g, hg, hv⟩ := h.bytes off hoff hseen
    ⟨g, hAB hg, hv⟩⟩

theorem new (hacc : f.accepted) (now : Int) :
    FilledFrom A f.dataSize.toNat f.fragmentSize.toNat (FragBuffer.new f.dataSize f.total now) := by
  refine ⟨List.length_replicate, DataFrag.toNat_total hacc, fun off _ hseen => ?_⟩
  simp [FragBuffer.new, FragBuffer.isSeen] at hseen

theorem agrees (h : FilledFrom A f.dataSize.toNat f.fragmentSize.toNat b)
    (hacc : f.accepted) (hcov : f.Covers) : f.Agrees b :=
  ⟨hacc, hcov, h.size, h.total⟩

theorem stored (h : FilledFrom A f.dataSize.toNat f.fragmentSize.toNat b)
    (hacc : f.accepted) (hcov : f.Covers) (hf : f ∈ A)
    (hst : Stored f f.first (f.first + f.fragmentsInSubmsg.toNat) b b') :
    FilledFrom A f.dataSize.toNat f.fragmentSize.toNat b' := by
  refine ⟨hst.length.trans h.size, by rw [hst.total]; exact h.total, fun off hoff hseen => ?_⟩
  have hpos : 0 < f.fragmentSize.toNat := Nat.pos_of_ne_zero (DataFrag.accepted_iff.1 hacc).1
  rw [hst.data off hoff]
  split_ifs with hnew
  · obtain ⟨-, hlo, hhi⟩ := hnew
    rw [le_div_iff_mul_le hpos] at hlo
    rw [div_lt_iff_lt_mul hpos] at hhi
    have hlen : off - f.first * f.fragmentSize.toNat < f.payload.length := by
      have hmod := mod_le f.payload.length (2 ^ 32)
      unfold DataFrag.Covers at hcov
      rw [add_mul] at hhi
      omega
    exact ⟨f, hf, _, getElem?_eq_getElem hlen, hlo, hhi, getElem?_eq_getElem hlen⟩
  · refine h.bytes off hoff ?_
    by_contra hold
    rcases (hst.seen _).1 hseen with hseen | ⟨hlo, hhi, -⟩
    · exact hold hseen
    · exact hnew ⟨by simpa using hold, hlo, hhi⟩

theorem bytes_of_complete (h : FilledFrom A D S b) (hS : S ≠ 0) (hdone : b.received ≥ b.total)
    (hoff : off < D) : ∃ g ∈ A, ∃ v, b.data[off]? = some v ∧ g.Supplies off v := by
  refine h.bytes off hoff (b.complete_iff.1 hdone _ ?_)
  rw [h.total, lt_div_iff_mul_lt (by omega)]
  have := div_mul_le_self off S
  omega

end FilledFrom

structure Submission where
  sender : GuidPrefix
  frag : DataFrag
  now : Int

/-- Two fragments of one sample of one participant, cut the same way. -/
@[mk_iff]
structure SameSample (x y : Submission) : Prop where
  sender : y.sender = x.sender
  writer : y.frag.writerEntityId = x.frag.writerEntityId
  seq : y.frag.writerSeqNum = x.frag.writerSeqNum
  dataSize : y.frag.dataSize = x.frag.dataSize
  fragmentSize : y.frag.fragmentSize = x.frag.fragmentSize

instance (x y : Submission) : Decidable (SameSample x y) :=
  decidable_of_iff _ (sameSample_iff x y).symm

/-- The fragments of one key are all of one sample, cut one way, and no payload is short. -/
structure Consistent (inputs : List Submission) : Prop where
  same : ∀ x ∈ inputs, ∀ y ∈ inputs, x.frag.accepted = true → y.frag.accepted = true →
    x.frag.key = y.frag.key → SameSample x y
  covers : ∀ x ∈ inputs, x.frag.accepted = true → x.frag.Covers

theorem Consistent.of_append {past later : List Submission} (h : Consistent (past ++ later)) :
    Consistent past :=
  ⟨fun x hx y hy => h.same x (mem_append_left _ hx) y (mem_append_left _ hy),
    fun x hx => h.covers x (mem_append_left _ hx)⟩

theorem SameSample.trans {x y z : Submission} (h : SameSample x y) (h' : SameSample y z) :
    SameSample x z :=
  ⟨h'.sender.trans h.sender, h'.writer.trans h.writer, h'.seq.trans h.seq,
    h'.dataSize.trans h.dataSize, h'.fragmentSize.trans h.fragmentSize⟩

namespace FragmentAssembler

def submit (fa : FragmentAssembler) (x : Submission) : FragmentAssembler × List Reassembled :=
  ((fa.receive x.frag x.now).1, [(fa.receive x.frag x.now).2])

def suppliers (inputs : List Submission) (x : Submission) : Set DataFrag :=
  { g | ∃ y ∈ inputs, SameSample x y ∧ y.frag = g }

def Sourced (fa : FragmentAssembler) (inputs : List Submission) : Prop :=
  ∀ key b, fa key = some b → ∃ x ∈ inputs, x.frag.accepted = true ∧ x.frag.key = key ∧
    FilledFrom (suppliers inputs x) x.frag.dataSize.toNat x.frag.fragmentSize.toNat b

variable {fa : FragmentAssembler} {past : List Submission} {x : Submission}

theorem Sourced.bufferFor (hfa : Sourced fa past) (h : Consistent (past ++ [x]))
    (hacc : x.frag.accepted) :
    FilledFrom (suppliers (past ++ [x]) x) x.frag.dataSize.toNat x.frag.fragmentSize.toNat
      (fa.bufferFor x.frag x.now) := by
  unfold FragmentAssembler.bufferFor
  cases hkept : fa.evict x.now x.frag.key with
  | none => exact FilledFrom.new hacc x.now
  | some b =>
    obtain ⟨y, hy, hyacc, hkey, hfill⟩ := hfa _ b (evict_eq_some.1 hkept).1
    have hsame := h.same x (by simp) y (by simp [hy]) hacc hyacc hkey.symm
    rw [hsame.dataSize, hsame.fragmentSize] at hfill
    refine hfill.mono fun g ⟨z, hz, hyz, hg⟩ => ?_
    exact ⟨z, mem_append_left _ hz, hsame.trans hyz, hg⟩

theorem Sourced.receive_eq (hfa : Sourced fa past) (h : Consistent (past ++ [x]))
    (hacc : x.frag.accepted) :
    ∃ b', FilledFrom (suppliers (past ++ [x]) x) x.frag.dataSize.toNat x.frag.fragmentSize.toNat
        b' ∧ fa.receive x.frag x.now = if b'.received ≥ b'.total
          then (erase (set (fa.evict x.now) x.frag.key b') x.frag.key, .payload b'.data)
          else (set (fa.evict x.now) x.frag.key b', .nothing) := by
  have hcov := h.covers x (by simp) hacc
  have hfill := hfa.bufferFor h hacc
  obtain ⟨b', hst, heq⟩ := receive_agrees (hfill.agrees hacc hcov)
  exact ⟨b', hfill.stored hacc hcov ⟨x, by simp, ⟨rfl, rfl, rfl, rfl, rfl⟩, rfl⟩ hst, heq⟩

theorem Sourced.receive (hfa : Sourced fa past) (h : Consistent (past ++ [x])) :
    Sourced (fa.receive x.frag x.now).1 (past ++ [x]) := by
  have hold : ∀ key b, fa key = some b → ∃ y ∈ past ++ [x], y.frag.accepted ∧
      y.frag.key = key ∧ FilledFrom (suppliers (past ++ [x]) y) y.frag.dataSize.toNat
        y.frag.fragmentSize.toNat b := fun key b hb =>
    let ⟨y, hy, hyacc, hkey, hfill⟩ := hfa key b hb
    ⟨y, mem_append_left _ hy, hyacc, hkey, hfill.mono fun _ ⟨z, hz, hyz, hg⟩ =>
      ⟨z, mem_append_left _ hz, hyz, hg⟩⟩
  intro key b hb
  by_cases hkey : x.frag.key = key
  · subst hkey
    by_cases hacc : x.frag.accepted
    · obtain ⟨b', hfill, heq⟩ := hfa.receive_eq h hacc
      rw [heq] at hb
      split_ifs at hb with hdone
      · simp at hb
      · simp only [set_self, Option.some.injEq] at hb
        subst hb
        exact ⟨x, by simp, hacc, rfl, hfill⟩
    · rw [FragmentAssembler.receive, if_pos (by simpa using hacc)] at hb
      exact hold _ b hb
  · rcases receive_other hkey with heq | heq
    · exact hold key b (heq.symm.trans hb)
    · exact hold key b (evict_eq_some.1 (heq.symm.trans hb)).1

theorem sourced_run {inputs : List Submission} (h : Consistent inputs) :
    Sourced (run submit empty inputs).1 inputs := by
  induction inputs using reverseRecOn with
  | nil => exact fun key b hb => nomatch hb
  | append_singleton past x ih =>
    rw [run_append, run_singleton]
    exact (ih h.of_append).receive h

/-- If all fragments of a key come from one participant with one geometry, and no payload is short,
every byte returned was brought by one of them at that offset. -/
theorem reassembly_integrity {inputs past later : List Submission} {x : Submission}
    (h : Consistent inputs) (hin : inputs = past ++ x :: later) {data : Bytes}
    (hdata : ((Run.run submit Table.empty past).1.receive x.frag x.now).2 = .payload data) :
    ∀ off < data.length, ∃ y ∈ past ++ [x], SameSample x y ∧
      ∃ v, data[off]? = some v ∧ y.frag.Supplies off v := by
  have hcons : Consistent (past ++ [x]) := by
    rw [hin, append_cons] at h
    exact h.of_append
  intro off hoff
  by_cases hacc : x.frag.accepted = true
  · obtain ⟨b', hfill, heq⟩ := (sourced_run hcons.of_append).receive_eq hcons hacc
    rw [heq] at hdata
    split_ifs at hdata with hdone
    obtain rfl := Reassembled.payload.inj hdata
    obtain ⟨g, ⟨y, hy, hsame, rfl⟩, v, hv, hsup⟩ := hfill.bytes_of_complete
      (DataFrag.accepted_iff.1 hacc).1 hdone (hfill.size ▸ hoff)
    exact ⟨y, hy, hsame, v, hv, hsup⟩
  · rw [receive, if_pos (by simpa using hacc)] at hdata
    cases hdata

theorem reassembly_integrity_two :
    let a : GuidPrefix := FixedBytes.copy 12 [1]
    let x : Submission :=
      ⟨a, ⟨entityIdForWriter 1, entityIdUnknown, u64ToSN 1, 2, 1, 1, 2, [20]⟩, 0⟩
    let y : Submission :=
      ⟨a, ⟨entityIdForWriter 1, entityIdUnknown, u64ToSN 1, 1, 1, 1, 2, [10]⟩, 1⟩
    ((run submit empty [x]).1.receive y.frag y.now).2 = .payload [10, 20] ∧
      ∀ off < 2, ∃ z ∈ [x] ++ [y], SameSample y z ∧
        ∃ v, [10, 20][off]? = some v ∧ z.frag.Supplies off v := by
  intro a x y
  have hdata : ((run submit empty [x]).1.receive y.frag y.now).2 = .payload [10, 20] := by
    decide +kernel
  have hcons : Consistent ([x] ++ y :: []) := ⟨by decide +kernel, by decide +kernel⟩
  exact ⟨hdata, reassembly_integrity hcons rfl hdata⟩

/-- Writers of two participants with one entity id and one number: halves of two samples make a
payload, which nobody wrote. -/
theorem mixed_participants :
    let a : GuidPrefix := FixedBytes.copy 12 [1]
    let b : GuidPrefix := FixedBytes.copy 12 [2]
    let x : Submission :=
      ⟨a, ⟨entityIdForWriter 1, entityIdUnknown, u64ToSN 1, 1, 1, 1, 2, [10]⟩, 0⟩
    let y : Submission :=
      ⟨b, ⟨entityIdForWriter 1, entityIdUnknown, u64ToSN 1, 2, 1, 1, 2, [20]⟩, 1⟩
    ((run submit empty [x]).1.receive y.frag y.now).2 = .payload [10, 20] ∧
      ¬ ∃ z ∈ [x] ++ [y], SameSample y z ∧ z.frag.Supplies 0 10 := by decide +kernel

end FragmentAssembler

/-! ## The fragments of a payload -/

section Split

variable {w : EntityId} {sn : SequenceNumber} {payload : Bytes} {size : UInt16} {k : ℕ}

structure Splittable (payload : Bytes) (size : UInt16) : Prop where
  nonempty : payload ≠ []
  length_le : payload.length ≤ maxReassemblyBytes
  size_ne : size.toNat ≠ 0

namespace Splittable

variable (h : Splittable payload size)
include h

theorem toNat_length : (UInt32.ofNat payload.length).toNat = payload.length := by
  have := h.length_le
  rw [maxReassemblyBytes] at this
  rw [UInt32.toNat_ofNat']
  omega

theorem lt_of_lt_count (hk : k < fragmentCount payload size) : k < 2 ^ 24 := by
  have hlt := (lt_fragmentCount_iff h.size_ne).1 hk
  have hlen := h.length_le
  rw [maxReassemblyBytes] at hlen
  have : k * 1 ≤ k * size.toNat := mul_le_mul_left _ (pos_of_ne_zero h.size_ne)
  omega

theorem toNat_start (hk : k < fragmentCount payload size) :
    (fragmentOf w sn payload size k).fragmentStartingNum.toNat = k + 1 := by
  have := h.lt_of_lt_count hk
  show (UInt32.ofNat (k + 1)).toNat = k + 1
  rw [UInt32.toNat_ofNat']
  omega

theorem first_fragmentOf (hk : k < fragmentCount payload size) :
    (fragmentOf w sn payload size k).first = k := by
  rw [DataFrag.first, h.toNat_start hk, Nat.add_sub_cancel]

theorem fragmentOf_inj {j : ℕ} (hj : j < fragmentCount payload size)
    (hk : k < fragmentCount payload size)
    (heq : fragmentOf w sn payload size j = fragmentOf w sn payload size k) : j = k := by
  have hfirst : (fragmentOf w sn payload size j).first = j := h.first_fragmentOf hj
  rw [heq, h.first_fragmentOf hk] at hfirst
  exact hfirst.symm

theorem accepted_fragmentOf (hk : k < fragmentCount payload size) :
    (fragmentOf w sn payload size k).accepted := by
  have hne := List.length_pos_of_ne_nil h.nonempty
  refine DataFrag.accepted_iff.2 ⟨h.size_ne, ?_, one_ne_zero, ?_, ?_⟩
  · show (UInt32.ofNat payload.length).toNat ≠ 0
    rw [h.toNat_length]
    omega
  · rw [h.toNat_start hk]
    omega
  · show (UInt32.ofNat payload.length).toNat ≤ _
    rw [h.toNat_length]
    exact h.length_le

theorem covers_fragmentOf (hk : k < fragmentCount payload size) :
    (fragmentOf w sn payload size k).Covers := by
  have hlen := h.length_le
  have hsize := size.toNat_lt
  rw [maxReassemblyBytes] at hlen
  rw [DataFrag.Covers, h.first_fragmentOf hk]
  show min (1 * size.toNat) ((UInt32.ofNat payload.length).toNat - k * size.toNat) ≤
    ((payload.drop (k * size.toNat)).take size.toNat).length % 2 ^ 32
  rw [h.toNat_length, List.length_take, List.length_drop]
  omega

theorem getElem?_of_supplies (hk : k < fragmentCount payload size)
    {v : UInt8} (hsup : (fragmentOf w sn payload size k).Supplies off v) :
    payload[off]? = some v := by
  obtain ⟨hlo, hhi, hv⟩ := hsup
  rw [h.first_fragmentOf hk] at hlo hhi hv
  replace hlo : k * size.toNat ≤ off := hlo
  replace hhi : off < (k + 1) * size.toNat := hhi
  replace hv : ((payload.drop (k * size.toNat)).take size.toNat)[off - k * size.toNat]? = some v :=
    hv
  rw [succ_mul] at hhi
  rw [List.getElem?_take_of_lt (by omega), List.getElem?_drop] at hv
  rwa [Nat.add_sub_cancel' hlo] at hv

end Splittable

end Split

namespace FragmentAssembler

/-! ## The round trip -/

section RoundTrip

variable {w : EntityId} {sn : SequenceNumber} {payload : Bytes} {size : UInt16}
  {fa : FragmentAssembler} {past : List Submission} {x : Submission}

/-- A buffer that has exactly the fragments of the payload that came. -/
structure Collects (w : EntityId) (sn : SequenceNumber) (payload : Bytes) (size : UInt16)
    (past : List Submission) (b : FragBuffer) : Prop where
  fill : FilledFrom { g | ∃ k < fragmentCount payload size, g = fragmentOf w sn payload size k }
    payload.length size.toNat b
  seen : ∀ k < fragmentCount payload size, b.isSeen k = true ↔
    ∃ y ∈ past, y.frag = fragmentOf w sn payload size k

/-- What is kept while fragments are missing: nothing before the first, then a buffer with those
that came. -/
def Kept (w : EntityId) (sn : SequenceNumber) (payload : Bytes) (size : UInt16)
    (past : List Submission) : Option FragBuffer → Prop
  | none => ∀ k < fragmentCount payload size, ∀ y ∈ past, y.frag ≠ fragmentOf w sn payload size k
  | some b => Collects w sn payload size past b ∧ ∃ y ∈ past, b.created = y.now

theorem Collects.data_eq (h : Splittable payload size) (hb : Collects w sn payload size past b)
    (hdone : b.received ≥ b.total) : b.data = payload := by
  refine ext_getElem? fun off => ?_
  rcases lt_or_ge off payload.length with hoff | hoff
  · obtain ⟨g, ⟨k, hk, rfl⟩, v, hv, hsup⟩ := hb.fill.bytes_of_complete h.size_ne hdone hoff
    rw [hv, h.getElem?_of_supplies hk hsup]
  · rw [getElem?_eq_none (by rw [hb.fill.size]; exact hoff), getElem?_eq_none hoff]

theorem Collects.complete_iff (hb : Collects w sn payload size past b) :
    b.received ≥ b.total ↔ ∀ k < fragmentCount payload size,
      ∃ y ∈ past, y.frag = fragmentOf w sn payload size k := by
  rw [b.complete_iff, hb.fill.total]
  exact forall₂_congr hb.seen

theorem Kept.bufferFor (h : Splittable payload size)
    (hkept : Kept w sn payload size past (fa ⟨w, snToU64 sn⟩)) (hk : k < fragmentCount payload size)
    {now : Int} (hnow : ∀ y ∈ past, now - y.now ≤ staleFragAge) :
    Collects w sn payload size past (fa.bufferFor (fragmentOf w sn payload size k) now) ∧
      ((fa.bufferFor (fragmentOf w sn payload size k) now).created = now ∨
        ∃ y ∈ past, (fa.bufferFor (fragmentOf w sn payload size k) now).created = y.now) := by
  have hkey : (fragmentOf w sn payload size k).key = ⟨w, snToU64 sn⟩ := rfl
  unfold FragmentAssembler.bufferFor
  rw [hkey]
  cases hb : fa ⟨w, snToU64 sn⟩ with
  | none =>
    rw [hb] at hkept
    have hnone : fa.evict now ⟨w, snToU64 sn⟩ = none := by
      rw [evict, filter_apply, hb]
      rfl
    rw [hnone, Option.getD_none]
    refine ⟨⟨?_, fun j hj => ⟨fun hseen => ?_, fun ⟨y, hy, heq⟩ => absurd heq (hkept j hj y hy)⟩⟩,
      .inl rfl⟩
    · rw [← h.toNat_length]
      exact FilledFrom.new (h.accepted_fragmentOf hk) now
    · simp [new, isSeen] at hseen
  | some b =>
    rw [hb] at hkept
    obtain ⟨hcoll, y, hy, hcreated⟩ := hkept
    have hsome : fa.evict now ⟨w, snToU64 sn⟩ = some b :=
      evict_eq_some.2 ⟨hb, by rw [hcreated]; exact hnow y hy⟩
    rw [hsome]
    exact ⟨hcoll, .inr ⟨y, hy, hcreated⟩⟩

theorem Kept.receive_eq (h : Splittable payload size)
    (hkept : Kept w sn payload size past (fa ⟨w, snToU64 sn⟩)) (hk : k < fragmentCount payload size)
    (hx : x.frag = fragmentOf w sn payload size k) (hnow : ∀ y ∈ past, x.now - y.now ≤ staleFragAge) :
    ∃ b', Collects w sn payload size (past ++ [x]) b' ∧ (∃ y ∈ past ++ [x], b'.created = y.now) ∧
      fa.receive x.frag x.now = if b'.received ≥ b'.total
          then (erase (set (fa.evict x.now) x.frag.key b') x.frag.key, .payload b'.data)
          else (set (fa.evict x.now) x.frag.key b', .nothing) := by
  obtain ⟨hcoll, hcreated⟩ := hkept.bufferFor h hk hnow
  rw [← hx] at hcoll hcreated
  have hacc : x.frag.accepted := hx ▸ h.accepted_fragmentOf hk
  have hcov : x.frag.Covers := hx ▸ h.covers_fragmentOf hk
  have hfirst : x.frag.first = k := by rw [hx, h.first_fragmentOf hk]
  have hone : x.frag.fragmentsInSubmsg.toNat = 1 := by rw [hx]; rfl
  have hD : x.frag.dataSize.toNat = payload.length := by rw [hx]; exact h.toNat_length
  have hS : x.frag.fragmentSize.toNat = size.toNat := by rw [hx]; rfl
  have hfill := hcoll.fill
  rw [← hD, ← hS] at hfill
  obtain ⟨b', hst, heq⟩ := receive_agrees (hfill.agrees hacc hcov)
  refine ⟨b', ⟨?_, fun j hj => ?_⟩, ?_, heq⟩
  · rw [← hD, ← hS]
    exact hfill.stored hacc hcov ⟨k, hk, hx⟩ hst
  · have hplace : j < (fa.bufferFor x.frag x.now).total.toNat := by rw [hcoll.fill.total]; exact hj
    rw [hst.seen, hcoll.seen j hj, hfirst, hone]
    constructor
    · rintro (⟨y, hy, heq⟩ | ⟨hlo, hhi, -⟩)
      · exact ⟨y, mem_append_left _ hy, heq⟩
      · exact ⟨x, by simp, by rw [hx, show j = k by omega]⟩
    · rintro ⟨y, hy, hfrag⟩
      rcases mem_append.1 hy with hy | hy
      · exact .inl ⟨y, hy, hfrag⟩
      · obtain rfl := mem_singleton.1 hy
        have := h.fragmentOf_inj hk hj (hx.symm.trans hfrag)
        exact .inr ⟨by omega, by omega, hplace⟩
  · rw [hst.created]
    rcases hcreated with hnew | ⟨y, hy, hold⟩
    · exact ⟨x, by simp, hnew⟩
    · exact ⟨y, mem_append_left _ hy, hold⟩

theorem Kept.receive_other (hkept : Kept w sn payload size past (fa ⟨w, snToU64 sn⟩))
    (hx : x.frag.key ≠ ⟨w, snToU64 sn⟩) (hnow : ∀ y ∈ past, x.now - y.now ≤ staleFragAge) :
    Kept w sn payload size (past ++ [x]) ((fa.receive x.frag x.now).1 ⟨w, snToU64 sn⟩) := by
  have hforeign : ∀ k, x.frag ≠ fragmentOf w sn payload size k := fun k heq => hx (by rw [heq]; rfl)
  have hsame : (fa.receive x.frag x.now).1 ⟨w, snToU64 sn⟩ = fa ⟨w, snToU64 sn⟩ := by
    rcases FragmentAssembler.receive_other hx with heq | heq
    · exact heq
    · rw [heq]
      cases hb : fa ⟨w, snToU64 sn⟩ with
      | none =>
        rw [evict, filter_apply, hb]
        rfl
      | some b =>
        rw [hb] at hkept
        obtain ⟨-, y, hy, hcreated⟩ := hkept
        exact evict_eq_some.2 ⟨hb, by rw [hcreated]; exact hnow y hy⟩
  rw [hsame]
  cases hb : fa ⟨w, snToU64 sn⟩ with
  | none =>
    rw [hb] at hkept
    intro k hk y hy
    rcases mem_append.1 hy with hy | hy
    · exact hkept k hk y hy
    · rw [mem_singleton.1 hy]
      exact hforeign k
  | some b =>
    rw [hb] at hkept
    obtain ⟨hcoll, y, hy, hcreated⟩ := hkept
    refine ⟨⟨hcoll.fill, fun k hk => (hcoll.seen k hk).trans ⟨?_, ?_⟩⟩,
      y, mem_append_left _ hy, hcreated⟩
    · rintro ⟨z, hz, heq⟩
      exact ⟨z, mem_append_left _ hz, heq⟩
    · rintro ⟨z, hz, heq⟩
      rcases mem_append.1 hz with hz | hz
      · exact ⟨z, hz, heq⟩
      · rw [mem_singleton.1 hz] at heq
        exact absurd heq (hforeign k)

theorem kept_run (h : Splittable payload size) (hfresh : fa ⟨w, snToU64 sn⟩ = none)
    (hfrom : ∀ y ∈ past,
      (∃ k < fragmentCount payload size, y.frag = fragmentOf w sn payload size k) ∨
        y.frag.key ≠ ⟨w, snToU64 sn⟩) (hnow : ∀ y ∈ past, ∀ z ∈ past, y.now - z.now ≤ staleFragAge)
    (hmissing : ∃ k < fragmentCount payload size, ∀ y ∈ past,
      y.frag ≠ fragmentOf w sn payload size k) :
    Kept w sn payload size past ((run submit fa past).1 ⟨w, snToU64 sn⟩) := by
  induction past using reverseRecOn with
  | nil =>
    show Kept _ _ _ _ _ (fa _)
    rw [hfresh]
    exact fun k hk y hy => by cases hy
  | append_singleton past x ih =>
    obtain ⟨j, hj, hjm⟩ := hmissing
    have hkept := ih (fun y hy => hfrom y (mem_append_left _ hy))
      (fun y hy z hz => hnow y (mem_append_left _ hy) z (mem_append_left _ hz))
      ⟨j, hj, fun y hy => hjm y (mem_append_left _ hy)⟩
    have hx : ∀ y ∈ past, x.now - y.now ≤ staleFragAge := fun y hy =>
      hnow x (by simp) y (mem_append_left _ hy)
    rw [run_append, run_singleton]
    rcases hfrom x (by simp) with ⟨k, hk, hfrag⟩ | hother
    · obtain ⟨b', hcoll, hcreated, heq⟩ := hkept.receive_eq h hk hfrag hx
      have hopen : ¬ b'.received ≥ b'.total := fun hdone =>
        let ⟨y, hy, heq⟩ := hcoll.complete_iff.1 hdone j hj
        hjm y hy heq
      rw [if_neg hopen] at heq
      have hkey : x.frag.key = ⟨w, snToU64 sn⟩ := by rw [hfrag]; rfl
      have hsome : (receive (run submit fa past).1 x.frag x.now).1 ⟨w, snToU64 sn⟩ =
          some b' := by
        rw [heq, ← hkey]
        exact set_self _ _ _
      show Kept _ _ _ _ _ ((receive _ _ _).1 _)
      rw [hsome]
      exact ⟨hcoll, hcreated⟩
    · exact hkept.receive_other hother hx

end RoundTrip

/-- The fragments of a payload, in any order, with duplicates, among fragments of other keys, give
back the payload on the call that brings the last missing one. -/
theorem fragment_round_trip (w : EntityId) (sn : SequenceNumber) {payload : Bytes} {size : Int}
    (hne : payload ≠ []) (hmax : payload.length ≤ maxReassemblyBytes) (hpos : 1 ≤ size)
    (hsize : size ≤ 65535) : ∃ frags, splitIntoFragmentsN w sn payload size = some frags ∧
      ∀ (fa : FragmentAssembler) (past : List Submission) (x : Submission),
        fa ⟨w, snToU64 sn⟩ = none → x.frag ∈ frags →
        (∀ y ∈ past, y.frag ∈ frags ∨ y.frag.key ≠ ⟨w, snToU64 sn⟩) →
        (∀ y ∈ past ++ [x], ∀ z ∈ past ++ [x], y.now - z.now ≤ staleFragAge) →
        (∃ f ∈ frags, ∀ y ∈ past, y.frag ≠ f) →
        ((Run.run submit fa past).1.receive x.frag x.now).2 =
          if ∀ f ∈ frags, ∃ y ∈ past ++ [x], y.frag = f then .payload payload else .nothing := by
  have htoNat : (UInt16.ofNat size.toNat).toNat = size.toNat := by
    rw [UInt16.toNat_ofNat']
    omega
  have hne16 : UInt16.ofNat size.toNat ≠ 0 := fun h0 => by
    rw [h0] at htoNat
    have : (0 : UInt16).toNat = 0 := rfl
    omega
  have hsplit : Splittable payload (ofNat size.toNat) := ⟨hne, hmax, by omega⟩
  have hmem : ∀ f, f ∈ (range (fragmentCount payload (ofNat size.toNat))).map
      (fragmentOf w sn payload (ofNat size.toNat)) ↔
      ∃ k < fragmentCount payload (ofNat size.toNat),
        f = fragmentOf w sn payload (ofNat size.toNat) k := fun f => by
    simp only [mem_map, mem_range, eq_comm]
  refine ⟨_, splitIntoFragmentsN_eq (by omega) hne16, ?_⟩
  intro fa past x hfresh hx hfrom hnow hmissing
  have hkept := kept_run hsplit hfresh (fun y hy => (hfrom y hy).imp_left (hmem _).1)
    (fun y hy z hz => hnow y (mem_append_left _ hy) z (mem_append_left _ hz))
    (let ⟨f, hf, hnot⟩ := hmissing
      let ⟨k, hk, heq⟩ := (hmem f).1 hf
      ⟨k, hk, fun y hy => heq ▸ hnot y hy⟩)
  obtain ⟨k, hk, hfrag⟩ := (hmem _).1 hx
  obtain ⟨b', hcoll, -, heq⟩ := hkept.receive_eq hsplit hk hfrag
    fun y hy => hnow x (by simp) y (mem_append_left _ hy)
  have hall : (∀ f ∈ (range (fragmentCount payload (ofNat size.toNat))).map
      (fragmentOf w sn payload (ofNat size.toNat)), ∃ y ∈ past ++ [x], y.frag = f) ↔
      b'.received ≥ b'.total := by
    rw [hcoll.complete_iff]
    constructor
    · exact fun h k hk => h _ ((hmem _).2 ⟨k, hk, rfl⟩)
    · intro h f hf
      obtain ⟨k, hk, rfl⟩ := (hmem f).1 hf
      exact h k hk
  rw [heq]
  by_cases hdone : b'.received ≥ b'.total
  · rw [if_pos hdone, if_pos (hall.2 hdone), hcoll.data_eq hsplit hdone]
  · rw [if_neg hdone, if_neg (fun h => hdone (hall.1 h))]

theorem fragment_round_trip_three :
    let w := entityIdForWriter 1
    let f : DataFrag := ⟨w, entityIdUnknown, u64ToSN 1, 1, 1, 2, 3, [10, 20]⟩
    let g : DataFrag := ⟨w, entityIdUnknown, u64ToSN 1, 2, 1, 2, 3, [30]⟩
    let x : DataFrag → Int → Submission := fun f now => ⟨FixedBytes.copy 12 [], f, now⟩
    splitIntoFragmentsN w (u64ToSN 1) [10, 20, 30] 2 = some [f, g] ∧
      ((run submit empty [x g 0]).1.receive g 1).2 = .nothing ∧
      ((run submit empty [x g 0, x g 1]).1.receive f 2).2 = .payload [10, 20, 30] := by
  intro w f g x
  have hne : ([10, 20, 30] : Bytes) ≠ [] := by decide
  obtain ⟨frags, hfrags, htrip⟩ := fragment_round_trip w (u64ToSN 1) hne (by decide)
    (by decide : (1 : Int) ≤ 2) (by decide)
  have hsplit : splitIntoFragmentsN w (u64ToSN 1) [10, 20, 30] 2 = some [f, g] := by decide +kernel
  obtain rfl : [f, g] = frags := Option.some.inj (hsplit.symm.trans hfrags)
  refine ⟨hsplit, ?_, ?_⟩
  · rw [htrip empty [x g 0] (x g 1) rfl (by decide +kernel) (by decide +kernel)
      (by decide +kernel) (by decide +kernel)]
    decide +kernel
  · rw [htrip empty [x g 0, x g 1] (x f 2) rfl (by decide +kernel) (by decide +kernel)
      (by decide +kernel) (by decide +kernel)]
    decide +kernel

end FragmentAssembler

end GoDDS
