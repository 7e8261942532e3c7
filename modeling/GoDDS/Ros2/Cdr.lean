import GoDDS.Lib.Go

/-!
# The CDR codec of the ROS 2 package

`cdrWriter` and `cdrReader` of `ros2/cdr.go`.
-/

namespace GoDDS.Ros2

open ByteCodec Go
open List hiding modify

def cdrLEHeader : Bytes := [0x00, 0x01, 0x00, 0x00]

structure CdrWriter where
  buf : Bytes

namespace CdrWriter

def new : CdrWriter := ⟨cdrLEHeader⟩

/-- The padding is counted from the end of the header. -/
def dataOffset (w : CdrWriter) : Nat := w.buf.length - 4

def align (n : Nat) (w : CdrWriter) : CdrWriter :=
  let pad := (n - w.dataOffset % n) % n
  if 0 < pad then ⟨w.buf ++ List.replicate pad 0⟩ else w

def uint32 (v : UInt32) (w : CdrWriter) : CdrWriter := ⟨(w.align 4).buf ++ le 4 v.toNat⟩

def str (s : Str) (w : CdrWriter) : CdrWriter :=
  ⟨(w.uint32 (.ofNat (s.length + 1))).buf ++ s ++ [0]⟩

def rawBytes (b : Bytes) (w : CdrWriter) : CdrWriter := ⟨w.buf ++ b⟩

theorem align_buf (n : Nat) (w : CdrWriter) :
    (w.align n).buf = w.buf ++ List.replicate ((n - w.dataOffset % n) % n) 0 := by
  unfold align
  dsimp only
  split_ifs with hpad
  · rfl
  · have hzero : (n - w.dataOffset % n) % n = 0 := by omega
    rw [hzero, replicate_zero, append_nil]

end CdrWriter

/-- Reads from the buffer behind the header; the state is the position in it. -/
abbrev CdrReader (α : Type) := Bytes → StateT Nat Option α

namespace CdrReader

def align (n : Nat) : StateT Nat Option Unit := modify fun pos => pos + (n - pos % n) % n

def rawBytes (n : Nat) : CdrReader Bytes := fun buf pos =>
  if buf.length < pos + n then none else some (slice buf pos (pos + n), pos + n)

def uint32 : CdrReader Nat := fun buf => do
  align 4
  let b ← rawBytes 4 buf
  return leVal b

def maxSeqLen : Nat := 2 ^ 20

def str : CdrReader Str := fun buf => do
  let n ← uint32 buf
  if n = 0 ∨ maxSeqLen < n then failure
  let b ← rawBytes n buf
  return b.dropLast

def many {α : Type} (read : CdrReader α) : Nat → CdrReader (List α)
  | 0 => fun _ => pure []
  | n + 1 => fun buf => do
    let x ← read buf
    let xs ← many read n buf
    return x :: xs

def seq {α : Type} (read : CdrReader α) : CdrReader (List α) := fun buf => do
  let n ← uint32 buf
  if maxSeqLen < n then failure
  many read n buf

end CdrReader

/-! ## What is written is read -/

/-- What `write` appends is read as `a`, whatever follows, and not if some of it is missing. -/
def Codes {α : Type} (write : CdrWriter → CdrWriter) (read : CdrReader α) (a : α) : Prop :=
  ∀ h d : Bytes, h.length = 4 → ∃ ext, (write ⟨h ++ d⟩).buf = h ++ (d ++ ext) ∧
    (∀ rest, read (d ++ ext ++ rest) d.length = some (a, (d ++ ext).length)) ∧
    ∀ k < ext.length, read (d ++ ext.take k) d.length = none

namespace Codes

variable {α β : Type} {p q : CdrWriter → CdrWriter} {f : CdrReader α} {g : α → CdrReader β}

theorem pure (a : α) : Codes id (fun _ => Pure.pure a) a := fun h d _ =>
  ⟨[], by simp, fun rest => by rw [append_nil]; rfl, by simp⟩

theorem bind {a : α} {b : β} (hf : Codes p f a) (hg : Codes q (g a) b) :
    Codes (fun w => q (p w)) (fun buf => f buf >>= fun a => g a buf) b := by
  intro h d hh
  obtain ⟨ext, hbuf, hsome, hnone⟩ := hf h d hh
  obtain ⟨ext', hbuf', hsome', hnone'⟩ := hg h (d ++ ext) hh
  have hrun : ∀ rest, (f (d ++ ext ++ rest) >>= fun a => g a (d ++ ext ++ rest)) d.length =
      g a (d ++ ext ++ rest) (d ++ ext).length := fun rest => by
    show (f _ _).bind _ = _
    rw [hsome rest]
    rfl
  refine ⟨ext ++ ext', ?_, fun rest => ?_, fun k hk => ?_⟩
  · rw [← append_assoc d, ← hbuf', ← hbuf]
  · rw [← append_assoc, append_assoc _ ext']
    exact (hrun _).trans (by rw [← append_assoc, hsome'])
  · rcases Nat.lt_or_ge k ext.length with hlt | hge
    · rw [take_append_of_le_length hlt.le]
      show (f _ _).bind _ = _
      rw [hnone k hlt]
      rfl
    · rw [take_append, take_of_length_le hge, ← append_assoc]
      exact (hrun _).trans (hnone' _ (by rw [length_append] at hk; omega))

theorem map {a : α} (hf : Codes p f a) (m : α → β) :
    Codes p (fun buf => f buf >>= fun a => Pure.pure (m a)) (m a) :=
  hf.bind (g := fun a _ => Pure.pure (m a)) (pure _)

open CdrReader

theorem rawBytes (b : Bytes) : Codes (CdrWriter.rawBytes b) (rawBytes b.length) b := by
  intro h d _
  refine ⟨b, append_assoc .., fun rest => ?_, fun k hk => if_pos ?_⟩
  · simp [CdrReader.rawBytes, slice, drop_take]
  · simpa using hk

theorem uint32 {n : Nat} (hn : n < 2 ^ 32) : Codes (CdrWriter.uint32 (.ofNat n)) uint32 n := by
  intro h d hh
  let pad : Bytes := .replicate ((4 - d.length % 4) % 4) 0
  have hrun : ∀ buf, CdrReader.uint32 buf d.length =
      (CdrReader.rawBytes 4 buf (d ++ pad).length).map fun r => (leVal r.1, r.2) := fun buf => by
    rw [length_append, length_replicate]
    show (CdrReader.rawBytes _ _ _).bind _ = _
    cases CdrReader.rawBytes 4 buf (d.length + (4 - d.length % 4) % 4) <;> rfl
  refine ⟨pad ++ le 4 n, ?_, fun rest => ?_, fun k hk => ?_⟩
  · simp [CdrWriter.uint32, CdrWriter.align_buf, CdrWriter.dataOffset, hh, pad,
      Nat.mod_eq_of_lt (show n < 4294967296 from hn)]
  · rw [hrun, ← append_assoc]
    simp [CdrReader.rawBytes, slice, drop_take, leVal_le_of_lt (show n < 256 ^ 4 by omega)]
    omega
  · rw [hrun, CdrReader.rawBytes, if_pos (by simp at hk ⊢; omega), Option.map_none]

theorem str {s : Str} (hs : s.length < 2 ^ 20) : Codes (CdrWriter.str s) CdrReader.str s := by
  have hok : ¬ CdrReader.maxSeqLen < s.length + 1 := Nat.not_lt.2 hs
  have hraw := (rawBytes (s ++ [0])).map List.dropLast
  have hlen : s.length + 1 < 2 ^ 32 := by omega
  have hstr := (uint32 hlen).bind (g := fun n buf => do
    if n = 0 ∨ CdrReader.maxSeqLen < n then failure
    let b ← CdrReader.rawBytes n buf
    return b.dropLast) (by simpa [hok] using hraw)
  have hwrite : CdrWriter.str s = fun w => (w.uint32 (.ofNat (s.length + 1))).rawBytes (s ++ [0]) :=
    funext fun w => by simp [CdrWriter.str, CdrWriter.rawBytes]
  rw [hwrite]
  exact hstr

theorem many {p : α → CdrWriter → CdrWriter} {xs : List α} (hone : ∀ a ∈ xs, Codes (p a) f a) :
    Codes (fun w => xs.foldl (fun w a => p a w) w) (many f xs.length) xs := by
  induction xs with
  | nil => exact pure []
  | cons x xs ih =>
    rw [forall_mem_cons] at hone
    exact bind (q := fun w => xs.foldl (fun w a => p a w) w) hone.1 ((ih hone.2).map (List.cons x))

theorem seq {p : α → CdrWriter → CdrWriter} {xs : List α} (hone : ∀ a ∈ xs, Codes (p a) f a)
    (hxs : xs.length ≤ 2 ^ 20) :
    Codes (fun w => xs.foldl (fun w a => p a w) (w.uint32 (.ofNat xs.length))) (seq f) xs := by
  have hok : ¬ maxSeqLen < xs.length := by simpa [maxSeqLen] using hxs
  have hlen : xs.length < 2 ^ 32 := by omega
  exact (uint32 hlen).bind (g := fun n buf => do
    if CdrReader.maxSeqLen < n then failure
    CdrReader.many f n buf) (by simpa [hok] using many hone)

end Codes

end GoDDS.Ros2
