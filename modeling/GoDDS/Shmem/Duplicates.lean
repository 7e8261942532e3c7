import GoDDS.Shmem.DataFile
import GoDDS.Shmem.Inbox

/-!
# Two paths to one subscriber

A `Write` delivers through the broker and by a `shmPublish`, whose listener may belong to one of the
same subscribers and cannot tell that what it reads is there already.
-/

namespace GoDDS.Shmem

open ByteCodec Multiset

/-- A subscriber, the file of its topic and its listener; the `Write`s so far, and what the reader
has got. Samples from the file have no publisher. -/
structure Reception (depth : Nat) where
  inbox : Inbox (Option Nat × Bytes) depth
  file : DataFile
  listener : Option Nat
  written : List (Nat × Bytes)
  read : List (Option Nat × Bytes)

namespace Reception

variable {depth : Nat} {s : Reception depth}

/-- A step of a goroutine. `accepted` is the answer of the filters; `file` does not involve this
subscriber's inbox. -/
inductive Act where
  | write (publisher : Nat) (payload : Bytes) (accepted : Bool)
  | listen
  | file (a : Shmem.Act) (accepted : Bool)
  | own (a : Inbox.Act)

/-- A subscriber registered after the given `Write`s; `late` is the one kept for late joiners. -/
def new (depth : Nat) (backPressure : BackPressure) (file : DataFile) (written : List (Nat × Bytes))
    (late : Option Nat) : Reception depth :=
  ⟨.new backPressure ((late.bind (written[·]?)).map fun w => (some w.1, w.2)), file, none, written, []⟩

/-- The payload that the listener passes on in a step at the file. -/
def passes (s : Reception depth) (a : Shmem.Act) (accepted : Bool) : Option Bytes :=
  match (s.file.step a).2 with
  | [o] => if some o.listener = s.listener ∧ accepted then some o.payload else none
  | _ => none

/-- When a `deliverSub` has returned, `publish` goes on to `go shmPublish`. -/
def published (s : Reception depth) : Inbox.Act → DataFile
  | .deliver i =>
    match s.inbox.flights[i]? with
    | some ((some publisher, payload), attempt) =>
      if (s.inbox.sub.deliverSub (some publisher, payload) attempt).2 = none then
        s.file.write publisher payload
      else s.file
    | _ => s.file
  | _ => s.file

def step (s : Reception depth) : Act → Reception depth × List (Option Nat × Bytes)
  | .write publisher payload accepted =>
    ({ s with
      inbox := if accepted then s.inbox.send (some publisher, payload) else s.inbox
      file := if accepted then s.file else s.file.write publisher payload
      written := s.written ++ [(publisher, payload)] }, [])
  | .listen => ({ s with file := s.file.listen, listener := some s.file.listeners.length }, [])
  | .file a accepted =>
    ({ s with
      inbox := (s.passes a accepted).elim s.inbox fun payload => s.inbox.arrive (none, payload)
      file := (s.file.step a).1 }, [])
  | .own a =>
    ({ s with
      inbox := (s.inbox.step a).1
      file := s.published a
      read := s.read ++ (s.inbox.step a).2 }, (s.inbox.step a).2)

def payloads (samples : Multiset (Option Nat × Bytes)) : Multiset Bytes := samples.map Prod.snd

/-- What has been put on `C()`: it has been read, or is still there. -/
def puts (s : Reception depth) : Multiset Bytes := payloads (↑s.read + ↑s.inbox.sub.ch.items)

/-- What the subscriber has got or may still get. -/
def copies (s : Reception depth) : Multiset Bytes := payloads (↑s.read + s.inbox.inventory)

def writes (s : Reception depth) : Multiset Bytes := ↑(s.written.map Prod.snd)

def Unduplicated (s : Reception depth) : Act → Prop
  | .file a accepted => ∀ payload ∈ s.passes a accepted,
      s.inbox.sub.listener.Full ∨ s.copies + {payload} ≤ s.writes
  | _ => True

instance (s : Reception depth) (a : Act) : Decidable (s.Unduplicated a) := by
  unfold Unduplicated
  split <;> infer_instance

theorem payloads_le {a b : Multiset (Option Nat × Bytes)} (h : a ≤ b) : payloads a ≤ payloads b :=
  map_le_map h

theorem puts_le_copies (s : Reception depth) : s.puts ≤ s.copies := by
  refine payloads_le (add_le_add le_rfl ?_)
  exact (le_add_left _ _).trans (le_add_right _ _)

theorem copies_new (backPressure : BackPressure) (file : DataFile) (written : List (Nat × Bytes))
    (late : Option Nat) :
    (new depth backPressure file written late).copies ≤ ↑(written.map Prod.snd) := by
  unfold new copies Inbox.inventory
  cases hlate : late.bind (written[·]?) with
  | none => exact zero_le _
  | some w =>
    obtain ⟨k, -, hk⟩ := Option.bind_eq_some_iff.1 hlate
    have hmem : w.2 ∈ written.map Prod.snd := List.mem_map_of_mem (List.mem_of_getElem? hk)
    exact singleton_le.2 hmem

theorem payloads_add_singleton (a b : Multiset (Option Nat × Bytes)) (x : Option Nat × Bytes) :
    payloads (a + (b + {x})) = payloads (a + b) + {x.2} := by
  simp [payloads, add_assoc]

theorem copies_step {a : Act} (hC : s.Unduplicated a) (h : s.copies ≤ s.writes) :
    (s.step a).1.copies ≤ (s.step a).1.writes := by
  cases a with
  | write publisher payload accepted =>
    have hwrites : (s.step (.write publisher payload accepted)).1.writes = s.writes + {payload} := by
      simp [step, writes, ← coe_add]
    rw [hwrites]
    cases accepted with
    | false => exact h.trans (le_add_right _ _)
    | true =>
      change payloads (↑s.read + (s.inbox.send (some publisher, payload)).inventory) ≤ _
      rw [Inbox.inventory_send, payloads_add_singleton]
      exact add_le_add h le_rfl
  | listen => exact h
  | file a accepted =>
    change payloads (↑s.read + ((s.passes a accepted).elim s.inbox fun payload =>
      s.inbox.arrive (none, payload)).inventory) ≤ s.writes
    cases hpass : s.passes a accepted with
    | none => exact h
    | some payload =>
      have harrive := s.inbox.inventory_arrive (none, payload)
      by_cases hfull : s.inbox.sub.listener.Full
      · rw [Subscriber.arriveDiscards, if_pos hfull] at harrive
        rw [Option.elim_some, ← add_right_cancel harrive]
        exact h
      · rw [Subscriber.arriveDiscards, if_neg hfull, Option.toList_none, coe_nil, add_zero]
          at harrive
        rw [Option.elim_some, ← harrive, payloads_add_singleton]
        exact (hC payload hpass).resolve_left hfull
  | own a =>
    refine le_trans (payloads_le ?_) h
    change (↑(s.read ++ (s.inbox.step a).2) : Multiset (Option Nat × Bytes)) +
      (s.inbox.step a).1.inventory ≤ _
    rw [s.inbox.inventory_step a, ← coe_add, add_assoc, add_comm _ (s.inbox.step a).1.inventory]
    exact add_le_add le_rfl (add_le_add (le_add_right _ _) le_rfl)

/-- If the listener passes on only payloads that have been written more often than the subscriber
has got or is about to get them, then no payload is put on `C()` more often than it has been
written. -/
theorem at_most_once_of_unduplicated (depth : Nat) (backPressure : BackPressure) (file : DataFile)
    (written : List (Nat × Bytes)) (late : Option Nat) (acts : List Act)
    (h : Run.Along (fun _ s a => s.Unduplicated a) step []
      (new depth backPressure file written late) acts) :
    let s := (Run.run step (new depth backPressure file written late) acts).1
    s.puts ≤ s.writes := by
  have hcopies := Run.run_induction (J := fun s _ _ => s.copies ≤ s.writes)
    (fun s a _ _ hC hle => copies_step hC hle) (copies_new backPressure file written late) h
  exact (puts_le_copies _).trans hcopies

theorem at_most_once_dropped :
    let acts : List Act := [.listen, .write 0 [1] true, .own (.deliver 0), .write 0 [2] true,
      .own (.deliver 0), .file (.publish 1) true, .file (.publish 1) true, .file (.publish 1) true,
      .file (.publish 1) true, .file (.receive 0) true, .file (.read 0) true, .file (.read 0) true,
      .own .start, .own (.take .inProc), .own .put, .own .tryRead, .own (.take .listener), .own .put]
    let s := (Run.run step (new 1 .dropNewest .new [] none) acts).1
    s.puts = {[1], [2]} ∧ s.puts ≤ s.writes := by
  intro acts s
  exact ⟨by decide +kernel, at_most_once_of_unduplicated 1 .dropNewest .new [] none acts
    (by decide +kernel)⟩

/-- The broker delivers the sample and the listener reads it. -/
theorem one_write_twice :
    let s := (Run.run step (new 2 .dropNewest .new [] none) [.listen, .write 0 [7] true,
      .own (.deliver 0), .own .start, .own (.take .inProc), .own .put, .file (.publish 0) true,
      .file (.publish 0) true, .file (.publish 0) true, .file (.publish 0) true,
      .file (.receive 0) true, .file (.read 0) true, .file (.read 0) true, .own (.take .listener),
      .own .put]).1
    s.puts = {[7], [7]} ∧ s.writes = {[7]} := by decide +kernel

end Reception

end GoDDS.Shmem
