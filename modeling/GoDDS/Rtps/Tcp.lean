import GoDDS.Lib.Bytes

/-!
# Messages over TCP
-/

namespace GoDDS.Tcp

open ByteCodec List

def maxTCPFrameSize : Nat := 1024 * 1024

/-- `tcpSocket` of `transport_tcp.go` puts the length, in four bytes, before the message. -/
def frame (data : Bytes) : Bytes := be 4 data.length ++ data

/-- The bytes written to the connection. -/
def send (data : Bytes) : Option Bytes :=
  if maxTCPFrameSize < data.length then none else some (frame data)

def readFull : Nat → List Bytes → Option (Bytes × List Bytes)
  | 0, conn => some ([], conn)
  | _ + 1, [] => none
  | n + 1, piece :: conn =>
    if n + 1 < piece.length then some (piece.take (n + 1), piece.drop (n + 1) :: conn)
    else (readFull (n + 1 - piece.length) conn).map fun x => (piece ++ x.1, x.2)

/-- What the first rounds of the loop push on `recv`, which has room. -/
def readConn : (rounds : Nat) → List Bytes → List Bytes
  | 0, _ => []
  | rounds + 1, conn =>
    match readFull 4 conn with
    | none => []
    | some (lenBuf, conn) =>
      if beVal lenBuf = 0 ∨ maxTCPFrameSize < beVal lenBuf then []
      else
        match readFull (beVal lenBuf) conn with
        | none => []
        | some (data, conn) => data :: readConn rounds conn

/-- The pieces do not matter. -/
theorem readFull_append {a rest : Bytes} {conn : List Bytes} (h : conn.flatten = a ++ rest) :
    ∃ conn', readFull a.length conn = some (a, conn') ∧ conn'.flatten = rest := by
  induction conn generalizing a with
  | nil =>
    obtain ⟨rfl, rfl⟩ := append_eq_nil_iff.1 h.symm
    exact ⟨[], rfl, rfl⟩
  | cons piece conn ih =>
    rw [flatten_cons] at h
    cases hn : a.length with
    | zero =>
      obtain rfl := length_eq_zero_iff.1 hn
      exact ⟨piece :: conn, rfl, h⟩
    | succ n =>
      rw [readFull]
      split_ifs with hlong
      · have htake := congrArg (take a.length) h
        rw [take_append_of_le_length (by omega), take_left, hn] at htake
        rw [htake]
        refine ⟨_, rfl, ?_⟩
        rw [flatten_cons, ← hn, ← drop_append_of_le_length (by omega), h, drop_left]
      · obtain ⟨a', rfl, hrest⟩ : ∃ a', a = piece ++ a' ∧ conn.flatten = a' ++ rest := by
          rcases append_eq_append_iff.1 h with ⟨a', ha, hrest⟩ | ⟨c, hpiece, hrest⟩
          · exact ⟨a', ha, hrest⟩
          · have hc : c = [] := length_eq_zero_iff.1 (by rw [hpiece, length_append] at hlong; omega)
            rw [hc, append_nil] at hpiece
            rw [hc, nil_append] at hrest
            exact ⟨[], by rw [hpiece, append_nil], hrest.symm⟩
        obtain ⟨conn', hread, hflat⟩ := ih hrest
        rw [length_append] at hn
        rw [← hn, Nat.add_sub_cancel_left, hread]
        exact ⟨conn', rfl, hflat⟩

theorem readConn_frame {m rest : Bytes} {conn : List Bytes} (hpos : 1 ≤ m.length)
    (hle : m.length ≤ maxTCPFrameSize) (h : conn.flatten = frame m ++ rest) (rounds : Nat) :
    ∃ conn', readConn (rounds + 1) conn = m :: readConn rounds conn' ∧ conn'.flatten = rest := by
  have hmax : maxTCPFrameSize = 1048576 := rfl
  have hval : beVal (be 4 m.length) = m.length := by
    rw [beVal, be, reverse_reverse, leVal_le_of_lt (by omega)]
  rw [frame, append_assoc] at h
  obtain ⟨conn₁, hlen, hflat₁⟩ := readFull_append h
  obtain ⟨conn₂, hdata, hflat₂⟩ := readFull_append hflat₁
  rw [length_be] at hlen
  refine ⟨conn₂, ?_, hflat₂⟩
  rw [readConn, hlen]
  dsimp only
  rw [hval, if_neg (by omega), hdata]

/-- However the frames of messages of 1 byte to 1 MiB are cut into pieces, `readConn` pushes these
messages, in order. -/
theorem tcp_framing {msgs : List Bytes}
    (hmsgs : ∀ m ∈ msgs, 1 ≤ m.length ∧ m.length ≤ maxTCPFrameSize) :
    (∀ m ∈ msgs, send m = some (frame m)) ∧ ∀ conn rounds,
      conn.flatten = msgs.flatMap frame → msgs.length ≤ rounds → readConn rounds conn = msgs := by
  refine ⟨fun m hm => if_neg (Nat.not_lt.2 (hmsgs m hm).2), fun conn rounds hconn hrounds => ?_⟩
  induction msgs generalizing conn rounds with
  | nil =>
    cases rounds with
    | zero => rfl
    | succ rounds =>
      have hempty : ∀ n, readFull (n + 1) conn = none := fun n => by
        induction conn generalizing n with
        | nil => rfl
        | cons piece conn ih =>
          obtain ⟨rfl, hrest⟩ := append_eq_nil_iff.1 hconn
          rw [readFull, if_neg (by simp)]
          exact congrArg _ (ih hrest n)
      rw [readConn, hempty 3]
  | cons m msgs ih =>
    obtain ⟨hpos, hle⟩ := hmsgs m mem_cons_self
    obtain ⟨rounds, rfl⟩ := Nat.exists_eq_add_of_le' (Nat.one_le_of_lt hrounds)
    obtain ⟨conn', hread, hflat⟩ := readConn_frame hpos hle hconn rounds
    rw [hread, ih (fun m' h' => hmsgs m' (mem_cons_of_mem m h')) conn' rounds hflat
      (Nat.le_of_succ_le_succ hrounds)]

theorem tcp_framing_cut : readConn 3 [[0, 0], [0, 1, 7, 0, 0], [0, 2, 8], [9]] = [[7], [8, 9]] :=
  (@tcp_framing [[7], [8, 9]] (by decide)).2 _ 3 rfl (by decide)

end GoDDS.Tcp
