import GoDDS.Lib.Bytes
import GoDDS.Lib.Run

/-!
# Several clients of one topic

In the REST and the gRPC bridge the handlers of all clients of a topic receive from one channel, and
a sample is received by one of them.
-/

namespace GoDDS.Bridge

open ByteCodec

def restPrepare (payload : Bytes) : Option Bytes := some payload

/-- What the gRPC bridge sends: nothing if `Filter` refuses the sample or `Transform` fails. -/
def grpcPrepare (filter : Option (Bytes → Bool)) (transform : Option (Bytes → Option Bytes))
    (payload : Bytes) : Option Bytes :=
  if filter.any fun f => !f payload then none else transform.elim (some payload) fun f => f payload

structure Sample where
  seq : Nat
  payload : Bytes
  watching : List Nat
  deriving DecidableEq

/-- Which clients are connected, the subscriber's channel, what was received from it, and what was
sent to whom. -/
structure Topic where
  clients : List Bool
  channel : List Sample
  received : List Sample
  sent : List (Sample × Nat)
  deriving DecidableEq

/-- A client connects or leaves, a sample arrives, or a handler takes a turn; `ok` if its write
succeeds. -/
inductive Act where
  | connect
  | leave (i : Nat)
  | arrive (payload : Bytes)
  | turn (i : Nat) (ok : Bool)

namespace Topic

def new : Topic := ⟨[], [], [], []⟩

variable (prepare : Bytes → Option Bytes)

def step (t : Topic) : Act → Topic × List Empty
  | .connect => ({ t with clients := t.clients ++ [true] }, [])
  | .leave i => ({ t with clients := t.clients.set i false }, [])
  | .arrive payload =>
    let connected := (List.range t.clients.length).filter fun i => t.clients[i]? = some true
    let sample := ⟨t.received.length + t.channel.length, payload, connected⟩
    ({ t with channel := t.channel ++ [sample] }, [])
  | .turn i ok =>
    match t.channel with
    | [] => (t, [])
    | x :: rest =>
      if t.clients[i]? ≠ some true then (t, [])
      else
        let t := { t with channel := rest, received := t.received ++ [x] }
        match prepare x.payload with
        | none => (t, [])
        | some _ =>
          if ok then ({ t with sent := t.sent ++ [(x, i)] }, [])
          else ({ t with clients := t.clients.set i false }, [])

/-- Every sample received is sent to all clients that were connected when it arrived. -/
def SentToAll (t : Topic) : Prop := ∀ x ∈ t.received, ∀ i ∈ x.watching, (x, i) ∈ t.sent

/-- A handler receives only what arrived for no other client, and sends it. -/
def Alone (t : Topic) : Act → Prop
  | .turn i ok => ∀ x ∈ t.channel.head?, (∀ j ∈ x.watching, j = i) ∧ (prepare x.payload).isSome ∧ ok
  | _ => True

theorem sentToAll_step {t : Topic} (h : t.SentToAll) {a : Act} (ha : t.Alone prepare a) :
    (t.step prepare a).1.SentToAll := by
  cases a with
  | turn i ok =>
    rw [step]
    split
    · exact h
    next x rest hchannel =>
    by_cases hleft : t.clients[i]? ≠ some true
    · rw [if_pos hleft]
      exact h
    rw [if_neg hleft]
    obtain ⟨halone, hprep, hok⟩ := ha x (by rw [hchannel]; rfl)
    obtain ⟨out, hout⟩ := Option.isSome_iff_exists.1 hprep
    simp only [hout, hok, if_true]
    intro y hy j hj
    rcases List.mem_append.1 hy with hy | hy
    · exact List.mem_append_left _ (h y hy j hj)
    · obtain rfl := List.mem_singleton.1 hy
      rw [halone j hj]
      exact List.mem_append_right _ List.mem_cons_self
  | _ => exact h

/-- In every run in which a sample is received only by the handler of the one client that was
connected when it arrived, and is then sent, all samples are sent to all these clients. -/
theorem sent_to_all {acts : List Act}
    (h : Run.Along (fun _ t a => t.Alone prepare a) (step prepare) [] new acts) :
    (Run.run (step prepare) new acts).1.SentToAll :=
  Run.run_induction (J := fun t _ _ => t.SentToAll)
    (fun _ _ _ _ ha ht => sentToAll_step prepare ht ha) nofun h

theorem sent_to_one :
    (Run.run (step restPrepare) new [.connect, .arrive [7], .turn 0 true, .leave 0, .connect,
      .arrive [8], .turn 1 true]).1.SentToAll := by
  refine sent_to_all restPrepare ?_
  simp [Run.Along, Alone, step, new, restPrepare]
  decide

theorem second_client_misses_sample :
    let run prepare := (Run.run (step prepare) new [.connect, .connect, .arrive [7], .turn 0 true]).1
    let x : Sample := ⟨0, [7], [0, 1]⟩
    run restPrepare = ⟨[true, true], [], [x], [(x, 0)]⟩ ∧
      run (grpcPrepare none none) = ⟨[true, true], [], [x], [(x, 0)]⟩ := by decide +kernel

end Topic

end GoDDS.Bridge
