import GoDDS.Ros2.Cdr
import GoDDS.Ros2.Graph

/-!
# The graph message

`ParticipantEntitiesInfo` as plain CDR (`ros2/graph.go`), and the decoder of it.
-/

namespace GoDDS.Ros2

open ByteCodec List

def encodeGids (gids : List Gid) (w : CdrWriter) : CdrWriter :=
  gids.foldl (fun w g => w.rawBytes g.toBytes) (w.uint32 (.ofNat gids.length))

def NodeEntitiesInfo.encode (n : NodeEntitiesInfo) (w : CdrWriter) : CdrWriter :=
  encodeGids n.writerGidSeq (encodeGids n.readerGidSeq ((w.str n.nodeNamespace).str n.nodeName))

def ParticipantEntitiesInfo.encode (info : ParticipantEntitiesInfo) : Bytes :=
  (info.nodeEntitiesInfoSeq.foldl (fun w n => n.encode w)
    ((CdrWriter.new.rawBytes info.gid.toBytes).uint32 (.ofNat info.nodeEntitiesInfoSeq.length))).buf

def decodeGid : CdrReader Gid := fun buf => do
  let b ← CdrReader.rawBytes 24 buf
  return .copy 24 b

def decodeNode : CdrReader NodeEntitiesInfo := fun buf => do
  let nodeNamespace ← CdrReader.str buf
  let nodeName ← CdrReader.str buf
  let readers ← CdrReader.seq decodeGid buf
  let writers ← CdrReader.seq decodeGid buf
  return ⟨nodeNamespace, nodeName, readers, writers⟩

def decodeInfo : CdrReader ParticipantEntitiesInfo := fun buf => do
  let gid ← decodeGid buf
  let nodes ← CdrReader.seq decodeNode buf
  return ⟨gid, nodes⟩

/-- The header is checked (`newCDRReader`); `none` where the source has `ok = false`. -/
def decodeParticipantEntitiesInfo (payload : Bytes) : Option ParticipantEntitiesInfo :=
  if payload.length < 4 ∨ payload[1]? ≠ cdrLEHeader[1]? then none
  else (decodeInfo (payload.drop 4) 0).map Prod.fst

def NodeEntitiesInfo.Fits (n : NodeEntitiesInfo) : Prop :=
  n.nodeNamespace.length < 2 ^ 20 ∧ n.nodeName.length < 2 ^ 20 ∧
    n.readerGidSeq.length ≤ 2 ^ 20 ∧ n.writerGidSeq.length ≤ 2 ^ 20

theorem codes_gid (g : Gid) : Codes (CdrWriter.rawBytes g.toBytes) decodeGid g := by
  have h := (Codes.rawBytes g.toBytes).map (FixedBytes.copy 24)
  rwa [FixedBytes.length_toBytes, FixedBytes.copy_toBytes] at h

theorem codes_gids {gids : List Gid} (h : gids.length ≤ 2 ^ 20) :
    Codes (encodeGids gids) (CdrReader.seq decodeGid) gids :=
  .seq (fun g _ => codes_gid g) h

theorem codes_node {n : NodeEntitiesInfo} (h : n.Fits) : Codes n.encode decodeNode n := by
  obtain ⟨nodeNamespace, nodeName, readers, writers⟩ := n
  obtain ⟨hnamespace, hname, hreaders, hwriters⟩ := h
  refine Codes.bind (q := fun w => encodeGids writers (encodeGids readers (w.str nodeName)))
    (Codes.str hnamespace) ?_
  refine Codes.bind (q := fun w => encodeGids writers (encodeGids readers w)) (Codes.str hname) ?_
  exact Codes.bind (q := encodeGids writers) (codes_gids hreaders) ((codes_gids hwriters).map _)

theorem codes_info {info : ParticipantEntitiesInfo} (h : info.nodeEntitiesInfoSeq.length ≤ 2 ^ 20)
    (hnodes : ∀ n ∈ info.nodeEntitiesInfoSeq, n.Fits) :
    Codes (fun w => info.nodeEntitiesInfoSeq.foldl (fun w n => n.encode w)
      ((w.rawBytes info.gid.toBytes).uint32 (.ofNat info.nodeEntitiesInfoSeq.length)))
      decodeInfo info := by
  obtain ⟨gid, nodes⟩ := info
  refine Codes.bind
    (q := fun w => nodes.foldl (fun w n => n.encode w) (w.uint32 (.ofNat nodes.length)))
    (codes_gid gid) ?_
  exact (Codes.seq (fun n hn => codes_node (hnodes n hn)) h).map _

/-- A message whose sequences have at most `2 ^ 20` elements and whose strings are shorter than that
is decoded from its encoding, and from no strict prefix of it. -/
theorem decode_encode_info {info : ParticipantEntitiesInfo}
    (h : info.nodeEntitiesInfoSeq.length ≤ 2 ^ 20) (hnodes : ∀ n ∈ info.nodeEntitiesInfoSeq, n.Fits) :
    decodeParticipantEntitiesInfo info.encode = some info ∧
      ∀ b, b <+: info.encode → b ≠ info.encode → decodeParticipantEntitiesInfo b = none := by
  obtain ⟨ext, hbuf, hsome, hnone⟩ := codes_info h hnodes cdrLEHeader [] rfl
  have henc : info.encode = cdrLEHeader ++ ext := hbuf
  have hdec : ∀ b, decodeParticipantEntitiesInfo (cdrLEHeader ++ b) = (decodeInfo b 0).map Prod.fst :=
    fun b => by simp [decodeParticipantEntitiesInfo, cdrLEHeader]
  have hall := hsome []
  refine ⟨?_, fun b hb hne => ?_⟩
  · rw [henc, hdec]
    simpa using congrArg (Option.map Prod.fst) hall
  · rw [henc] at hb hne
    obtain ⟨k, rfl⟩ : ∃ k, b = (cdrLEHeader ++ ext).take k := ⟨_, prefix_iff_eq_take.1 hb⟩
    have hk : k < (cdrLEHeader ++ ext).length := by
      by_contra hle
      exact hne (take_of_length_le (Nat.not_lt.1 hle))
    rw [length_append] at hk
    rcases Nat.lt_or_ge k cdrLEHeader.length with hlt | hge
    · exact if_pos (.inl ((length_take_le _ _).trans_lt hlt))
    · rw [take_append, take_of_length_le hge, hdec]
      exact congrArg _ (hnone (k - cdrLEHeader.length) (by omega))

theorem decode_encode_one : decodeParticipantEntitiesInfo
      (ParticipantEntitiesInfo.mk (.copy 24 [1]) [⟨[47], [97], [.copy 24 [2]], []⟩]).encode =
        some ⟨.copy 24 [1], [⟨[47], [97], [.copy 24 [2]], []⟩]⟩ :=
  (decode_encode_info (by decide) (by simp [NodeEntitiesInfo.Fits])).1

end GoDDS.Ros2
