import GoDDS.Lib.Bytes

/-!
# Reassembly of WebSocket messages

The loop that reads a message appends the payloads of data frames until one has FIN, and answers or
skips control frames. A new TEXT or BINARY frame only changes the opcode, and a continuation needs
no start.
-/

namespace GoDDS.WebSocket

open ByteCodec List

structure Frame where
  fin : Bool
  op : UInt8
  payload : Bytes
  deriving DecidableEq

def opContinuation : UInt8 := 0x0

def opText : UInt8 := 0x1

def opBinary : UInt8 := 0x2

def opClose : UInt8 := 0x8

def opPing : UInt8 := 0x9

def opPong : UInt8 := 0xA

/-- The opcode of the message after a data frame: that of the frame, but for a continuation. -/
def nextOp (msgOp : UInt8) (f : Frame) : UInt8 := if f.op = opContinuation then msgOp else f.op

/-- The loop of `readMessage`: opcode, message, and frames not read. `pong`: the answer to a ping is
written. -/
def readLoop (maxSize : Nat) (pong : Frame → Bool) (msgOp : UInt8) (buf : Bytes) :
    List Frame → Option (UInt8 × Bytes × List Frame)
  | [] => none
  | f :: fs =>
    if f.op = opPing then if pong f then readLoop maxSize pong msgOp buf fs else none
    else if f.op = opPong then readLoop maxSize pong msgOp buf fs
    else if f.op = opClose then some (opClose, f.payload, fs)
    else if maxSize < (buf ++ f.payload).length then none
    else if f.fin then some (nextOp msgOp f, buf ++ f.payload, fs)
    else readLoop maxSize pong (nextOp msgOp f) (buf ++ f.payload) fs

def readMessage (maxSize : Nat) (pong : Frame → Bool) (fs : List Frame) :=
  readLoop maxSize pong 0xFF [] fs

def Transport.readMessage := WebSocket.readMessage (2 ^ 20)

def Bridge.readMessage := WebSocket.readMessage (2 ^ 20)

/-! ## What a message is -/

def data (fs : List Frame) : List Frame :=
  fs.filter fun f => f.op ≠ opPing ∧ f.op ≠ opPong ∧ f.op ≠ opClose

def InOrder : List Frame → Prop
  | [] => False
  | f :: fs => (f.op = opText ∨ f.op = opBinary) ∧ ∀ c ∈ fs, c.op = opContinuation

def Ends (fs : List Frame) : Prop := ∃ n, fs.map Frame.fin = List.replicate n false ++ [true]

def IsMessage (op : UInt8) (payload : Bytes) (fs : List Frame) : Prop :=
  InOrder fs ∧ Ends fs ∧ fs.head?.map Frame.op = some op ∧ payload = fs.flatMap Frame.payload

variable {maxSize : Nat} {pong : Frame → Bool} {fs rest : List Frame} {op msgOp : UInt8}
  {payload buf : Bytes}

theorem foldl_nextOp (h : ∀ f ∈ fs, f.op = opContinuation) : fs.foldl nextOp op = op := by
  induction fs with
  | nil => rfl
  | cons f fs ih =>
    rw [foldl_cons, nextOp, if_pos (h f mem_cons_self)]
    exact ih fun c hc => h c (mem_cons_of_mem f hc)

theorem readLoop_eq_some (h : readLoop maxSize pong msgOp buf fs = some (op, payload, rest))
    (hclose : op ≠ opClose) :
    ∃ used, fs = used ++ rest ∧ Ends (data used) ∧ op = (data used).foldl nextOp msgOp ∧
      payload = buf ++ (data used).flatMap Frame.payload := by
  induction fs generalizing msgOp buf with
  | nil => cases h
  | cons f fs ih =>
    rw [readLoop] at h
    by_cases hdata : f.op ≠ opPing ∧ f.op ≠ opPong ∧ f.op ≠ opClose
    · obtain ⟨hping, hpong, hcl⟩ := hdata
      have hcons (used : List Frame) : data (f :: used) = f :: data used := by
        simp [data, hping, hpong, hcl]
      rw [if_neg hping, if_neg hpong, if_neg hcl] at h
      split_ifs at h with hbig hfin
      · cases h
        have hone : data [f] = [f] := hcons []
        exact ⟨[f], rfl, ⟨0, by simp [hone, hfin]⟩, by rw [hone]; rfl, by simp [hone]⟩
      · obtain ⟨used, rfl, ⟨n, hn⟩, hop, hpayload⟩ := ih h
        refine ⟨f :: used, rfl, ⟨n + 1, ?_⟩, ?_, ?_⟩
        · simp [hcons, hn, hfin, replicate_succ]
        · rw [hcons, hop, foldl_cons]
        · rw [hcons, hpayload, flatMap_cons, append_assoc]
    · -- a control frame is not part of the message
      have hcons (used : List Frame) : data (f :: used) = data used := by simp [data, hdata]
      have hloop : readLoop maxSize pong msgOp buf fs = some (op, payload, rest) := by
        split_ifs at h with hping _ hpong hcl
        · exact h
        · exact h
        · cases h
          exact absurd rfl hclose
        all_goals exact absurd ⟨hping, hpong, hcl⟩ hdata
      obtain ⟨used, rfl, hspec⟩ := ih hloop
      exact ⟨f :: used, rfl, by rwa [hcons]⟩

/-- What is returned is a message in the sense of RFC 6455 exactly if the data frames read are one
TEXT or BINARY frame and then continuations. -/
theorem message_iff_inOrder (h : readMessage maxSize pong fs = some (op, payload, rest))
    (hclose : op ≠ opClose) :
    ∃ used, fs = used ++ rest ∧ (IsMessage op payload (data used) ↔ InOrder (data used)) := by
  obtain ⟨used, hfs, hends, hop, hpayload⟩ := readLoop_eq_some h hclose
  refine ⟨used, hfs, And.left, fun horder => ⟨horder, hends, ?_, hpayload⟩⟩
  cases hdata : data used with
  | nil =>
    rw [hdata] at horder
    exact horder.elim
  | cons f cs =>
    rw [hdata] at horder hop
    have hfirst : f.op ≠ opContinuation := by rcases horder.1 with h | h <;> rw [h] <;> decide
    rw [hop, foldl_cons, foldl_nextOp horder.2, nextOp, if_neg hfirst]
    rfl

theorem message_of_two_frames :
    let fs : List Frame := [⟨false, opText, [1]⟩, ⟨true, opPing, []⟩, ⟨true, opContinuation, [2]⟩]
    ∃ used, fs = used ++ [] ∧ (IsMessage opText [1, 2] (data used) ↔ InOrder (data used)) :=
  message_iff_inOrder (show readMessage (2 ^ 20) (fun _ => true) _ = some (_, _, []) by decide)
    (by decide)

/-- A new message inside a fragmented one is joined to it, and continuations alone are returned,
with an opcode no frame has. -/
theorem illegal_sequences_returned :
    let pong : Frame → Bool := fun _ => true
    let inside : List Frame := [⟨false, opText, [1]⟩, ⟨true, opBinary, [2]⟩]
    let startless : List Frame := [⟨true, opContinuation, [1]⟩]
    ¬ InOrder inside ∧ Transport.readMessage pong inside = some (opBinary, [1, 2], []) ∧
      Bridge.readMessage pong inside = some (opBinary, [1, 2], []) ∧ ¬ InOrder startless ∧
      Transport.readMessage pong startless = some (0xFF, [1], []) ∧
      Bridge.readMessage pong startless = some (0xFF, [1], []) := by
  refine ⟨?_, rfl, rfl, ?_, rfl, rfl⟩
  · simp [InOrder, opBinary, opContinuation]
  · simp [InOrder, opText, opBinary, opContinuation]

end GoDDS.WebSocket
