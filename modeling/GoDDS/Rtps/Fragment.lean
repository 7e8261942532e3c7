import GoDDS.Rtps.Message

/-!
# Fragments

The sending half of `fragment.go`.
-/

namespace GoDDS

open ByteCodec
open List hiding not_lt

/-! ## DATA_FRAG -/

def maxFragmentPayload : Int := 1200

def submsgDATAFRAG : UInt8 := 0x16

structure DataFrag where
  writerEntityId : EntityId
  readerEntityId : EntityId
  writerSeqNum : SequenceNumber
  fragmentStartingNum : UInt32
  fragmentsInSubmsg : UInt16
  fragmentSize : UInt16
  dataSize : UInt32
  payload : Bytes
  deriving DecidableEq

def dataFragBody (f : DataFrag) : Bytes :=
  u16 0 ++ (u16 0 ++ (f.readerEntityId.toBytes ++ (f.writerEntityId.toBytes ++
    (putSN f.writerSeqNum ++ (u32 f.fragmentStartingNum ++ (u16 f.fragmentsInSubmsg ++
      (u16 f.fragmentSize ++ (u32 f.dataSize ++ f.payload))))))))

def marshalDataFrag (f : DataFrag) : Bytes := frame submsgDATAFRAG flagEndianness (dataFragBody f)

theorem length_dataFragBody (f : DataFrag) : (dataFragBody f).length = 32 + f.payload.length := by
  simp [dataFragBody]
  omega

def parseDataFrag (body : Bytes) : Option DataFrag :=
  if body.length < 32 then none
  else some
    { readerEntityId := FixedBytes.copy 4 (slice body 4 8)
      writerEntityId := FixedBytes.copy 4 (slice body 8 12)
      writerSeqNum := snAt body 12
      fragmentStartingNum := u32At body 20
      fragmentsInSubmsg := u16At body 24
      fragmentSize := u16At body 26
      dataSize := u32At body 28
      payload := body.drop 32 }

theorem parseDataFrag_dataFragBody (f : DataFrag) : parseDataFrag (dataFragBody f) = some f := by
  have hlen : ¬ (dataFragBody f).length < 32 := by rw [length_dataFragBody]; omega
  have hreader : slice (dataFragBody f) 4 8 = f.readerEntityId.toBytes := by
    simp [dataFragBody, slice_skip, slice_here]
  have hwriter : slice (dataFragBody f) 8 12 = f.writerEntityId.toBytes := by
    simp [dataFragBody, slice_skip, slice_here]
  have hsn : snAt (dataFragBody f) 12 = f.writerSeqNum := by simp [dataFragBody, snAt_skip]
  have hstart : u32At (dataFragBody f) 20 = f.fragmentStartingNum := by
    simp [dataFragBody, u32At_skip]
  have hcount : u16At (dataFragBody f) 24 = f.fragmentsInSubmsg := by
    simp [dataFragBody, u16At_skip]
  have hsize : u16At (dataFragBody f) 26 = f.fragmentSize := by simp [dataFragBody, u16At_skip]
  have htotal : u32At (dataFragBody f) 28 = f.dataSize := by simp [dataFragBody, u32At_skip]
  have hpayload : (dataFragBody f).drop 32 = f.payload := by
    simp [dataFragBody, drop_append, drop_eq_nil_of_le]
  rw [parseDataFrag, if_neg hlen, hreader, hwriter, hsn, hstart, hcount, hsize, htotal, hpayload,
    FixedBytes.copy_toBytes, FixedBytes.copy_toBytes]

variable {payload : Bytes} {f : DataFrag} {w : EntityId} {maxSize : Int} {fuel k : Nat}
  {sn : SequenceNumber} {size : UInt16}

theorem take_dataFragBody (h : f.readerEntityId = entityIdUnknown) :
    (dataFragBody f).take 8 = List.replicate 8 0 := by
  unfold dataFragBody
  rw [h]
  rfl

/-! ## Splitting -/

/-- Cut `rest` into fragments of `size` bytes, numbered from `fragNum`. The length of `rest` is
enough fuel. -/
def splitLoop (writerEID : EntityId) (seqNum : SequenceNumber) (total : Nat) (size : UInt16) :
    Nat → Bytes → UInt32 → List DataFrag
  | 0, _, _ => []
  | fuel + 1, rest, fragNum =>
    if rest.isEmpty then []
    else
      { writerEntityId := writerEID
        readerEntityId := entityIdUnknown
        writerSeqNum := seqNum
        fragmentStartingNum := fragNum
        fragmentsInSubmsg := 1
        fragmentSize := size
        dataSize := UInt32.ofNat total
        payload := rest.take size.toNat } ::
        splitLoop writerEID seqNum total size fuel (rest.drop size.toNat) (fragNum + 1)

/-- The fragment size is truncated to 16 bits before the cut; a size that is a multiple of 65536
makes the source divide by zero, which is `none` here. -/
def splitIntoFragmentsN (writerEID : EntityId) (seqNum : SequenceNumber) (payload : Bytes)
    (maxPayloadSize : Int) : Option (List DataFrag) :=
  let maxPayloadSize := if maxPayloadSize ≤ 0 then maxFragmentPayload else maxPayloadSize
  let size := UInt16.ofNat maxPayloadSize.toNat
  if size = 0 then none
  else some (splitLoop writerEID seqNum payload.length size payload.length payload 1)

theorem splitLoop_spec {total : Nat} {rest : Bytes} {fragNum : UInt32}
    (h : f ∈ splitLoop w sn total size fuel rest fragNum) :
    f.readerEntityId = entityIdUnknown ∧ f.payload.length ≤ size.toNat := by
  induction fuel generalizing rest fragNum with
  | zero => simp [splitLoop] at h
  | succ fuel ih =>
    rw [splitLoop] at h
    split_ifs at h with hempty
    · simp at h
    · rcases mem_cons.1 h with rfl | h
      · exact ⟨rfl, length_take_le _ _⟩
      · exact ih h

/-- Every fragment starts with eight zero bytes and carries at most as many payload bytes as the
fragment size. -/
theorem splitIntoFragmentsN_spec {frags : List DataFrag} (hpos : 0 < maxSize)
    (h : splitIntoFragmentsN w sn payload maxSize = some frags) (hf : f ∈ frags) :
    f.readerEntityId = entityIdUnknown ∧ (f.payload.length : Int) ≤ maxSize ∧
      f.payload.length < 65536 := by
  unfold splitIntoFragmentsN at h
  simp only [if_neg (show ¬ maxSize ≤ 0 by omega)] at h
  split_ifs at h with hzero
  obtain rfl := Option.some.inj h
  obtain ⟨hreader, hlen⟩ := splitLoop_spec hf
  have hsize := (UInt16.ofNat maxSize.toNat).toNat_lt
  have hmod : (UInt16.ofNat maxSize.toNat).toNat = maxSize.toNat % 2 ^ 16 := UInt16.toNat_ofNat'
  exact ⟨hreader, by omega, by omega⟩

theorem splitIntoFragmentsN_ne_nil {frags : List DataFrag} (hne : payload ≠ [])
    (h : splitIntoFragmentsN w sn payload maxSize = some frags) : frags ≠ [] := by
  unfold splitIntoFragmentsN at h
  dsimp only at h
  obtain ⟨b, rest, rfl⟩ := exists_cons_of_ne_nil hne
  split_ifs at h
  all_goals
    obtain rfl := Option.some.inj h
    simp [splitLoop]

def fragmentOf (writerEID : EntityId) (seqNum : SequenceNumber) (payload : Bytes) (size : UInt16)
    (k : Nat) : DataFrag :=
  { writerEntityId := writerEID
    readerEntityId := entityIdUnknown
    writerSeqNum := seqNum
    fragmentStartingNum := UInt32.ofNat (k + 1)
    fragmentsInSubmsg := 1
    fragmentSize := size
    dataSize := UInt32.ofNat payload.length
    payload := (payload.drop (k * size.toNat)).take size.toNat }

def fragmentCount (payload : Bytes) (size : UInt16) : Nat :=
  (payload.length + size.toNat - 1) / size.toNat

theorem lt_fragmentCount_iff (hsize : size.toNat ≠ 0) :
    k < fragmentCount payload size ↔ k * size.toNat < payload.length := by
  rw [fragmentCount, Nat.lt_div_iff_mul_lt (by omega)]
  omega

theorem splitLoop_eq (hsize : size.toNat ≠ 0) (hfuel : payload.length - k * size.toNat ≤ fuel) :
    splitLoop w sn payload.length size fuel (payload.drop (k * size.toNat)) (UInt32.ofNat (k + 1)) =
      (List.range' k (fragmentCount payload size - k)).map (fragmentOf w sn payload size) := by
  induction fuel generalizing k with
  | zero =>
    have hdone : fragmentCount payload size ≤ k := by
      rw [← not_lt, lt_fragmentCount_iff hsize]
      omega
    rw [Nat.sub_eq_zero_of_le hdone]
    rfl
  | succ fuel ih =>
    rw [splitLoop]
    by_cases hmore : k < fragmentCount payload size
    · have hrest := (lt_fragmentCount_iff hsize).1 hmore
      have hcount : fragmentCount payload size - k = fragmentCount payload size - (k + 1) + 1 := by
        omega
      have hnext : UInt32.ofNat (k + 1) + 1 = UInt32.ofNat (k + 1 + 1) :=
        (UInt32.ofNat_add (k + 1) 1).symm
      rw [if_neg (by rw [List.isEmpty_iff, drop_eq_nil_iff]; omega), drop_drop,
        ← Nat.succ_mul, hnext, ih (by rw [Nat.succ_mul]; omega), hcount, range'_succ,
        map_cons]
      rfl
    · have hdone : payload.length ≤ k * size.toNat := by
        rwa [lt_fragmentCount_iff hsize, not_lt] at hmore
      rw [if_pos (List.isEmpty_iff.2 (drop_eq_nil_of_le hdone)),
        Nat.sub_eq_zero_of_le (not_lt.1 hmore)]
      rfl

theorem splitIntoFragmentsN_eq (hpos : 0 < maxSize) (hsize : UInt16.ofNat maxSize.toNat ≠ 0) :
    splitIntoFragmentsN w sn payload maxSize =
      some ((List.range (fragmentCount payload (UInt16.ofNat maxSize.toNat))).map
        (fragmentOf w sn payload (UInt16.ofNat maxSize.toNat))) := by
  have hne : (UInt16.ofNat maxSize.toNat).toNat ≠ 0 := fun h =>
    hsize (UInt16.toNat_inj.1 (by rw [h]; rfl))
  have hfuel : payload.length - 0 * (UInt16.ofNat maxSize.toNat).toNat ≤ payload.length :=
    Nat.sub_le _ _
  have hloop : splitLoop w sn _ _ _ _ _ = _ := splitLoop_eq hne hfuel
  rw [Nat.zero_mul, drop_zero, Nat.sub_zero, ← range_eq_range'] at hloop
  unfold splitIntoFragmentsN
  simp only [if_neg (show ¬ maxSize ≤ 0 by omega), if_neg hsize]
  rw [← hloop]
  rfl

theorem length_body_of_zeros_fuel {b : Bytes} (hzero : b.take k = List.replicate k 0)
    {s : Submessage} (hs : s ∈ (parseSubmessagesFuel fuel b).1) (hid : s.id ≠ 0) :
    s.body.length + 4 + k ≤ b.length := by
  induction fuel generalizing b k with
  | zero => simp [parseSubmessagesFuel] at hs
  | succ fuel ih =>
    rcases b with _ | ⟨id, _ | ⟨flags, _ | ⟨l₀, _ | ⟨l₁, rest⟩⟩⟩⟩
    iterate 4 · simp [parseSubmessagesFuel] at hs
    · simp only [parseSubmessagesFuel] at hs
      generalize octetsToNextHeader flags l₀ l₁ = n at hs
      -- the rest of the buffer starts with the zeros not stepped over
      have htail : s ∈ (parseSubmessagesFuel fuel (rest.drop n)).1 →
          s.body.length + 4 + k ≤ (id :: flags :: l₀ :: l₁ :: rest).length := by
        intro hs'
        have hzero' : (rest.drop n).take (k - (4 + n)) = List.replicate (k - (4 + n)) 0 := by
          rcases Nat.le_total k (4 + n) with hk | hk
          · rw [Nat.sub_eq_zero_of_le hk, take_zero, replicate_zero]
          · have hdrop := congrArg (List.drop (4 + n)) hzero
            rw [drop_take, drop_replicate] at hdrop
            simpa [Nat.add_comm 4 n] using hdrop
        have hlen := ih hzero' hs'
        rw [length_drop] at hlen
        simp only [length_cons]
        omega
      split_ifs at hs with hlong hlittle
      · simp at hs
      · rcases mem_cons.1 hs with rfl | hs
        · have hk : k = 0 := by
            by_contra hk
            obtain ⟨j, rfl⟩ := Nat.exists_eq_succ_of_ne_zero hk
            rw [take_succ_cons, replicate_succ] at hzero
            exact hid (List.cons.inj hzero).1
          have hbody := length_take_le n rest
          simp only [length_cons, length_take] at hbody ⊢
          omega
        · exact htail hs
      · exact htail hs

end GoDDS
