import GoDDS.Lib.Parties
import GoDDS.Shmem.Names

/-!
# Who hears of a sample
-/

namespace GoDDS.Shmem

open Go

/-- The listener bound at each path, and the topic of each listener; a closed one has none. -/
structure Listeners where
  sockets : Table Str Nat
  topics : List (Option Str)

namespace Listeners

inductive Act where
  | create (topic : Str)
  | close (l : Nat)

def new : Listeners := ⟨Table.empty, []⟩

/-- The socket that is at the topic's path is removed. -/
def newShmListener (s : Listeners) (topic : Str) : Listeners :=
  let path := shmSocketPath topic
  ⟨(s.sockets.erase path).set path s.topics.length, s.topics ++ [some topic]⟩

/-- Whatever socket is at the path is removed. -/
def close (s : Listeners) (l : Nat) : Listeners :=
  match s.topics[l]? with
  | some (some topic) => ⟨s.sockets.erase (shmSocketPath topic), s.topics.set l none⟩
  | _ => s

def step (s : Listeners) : Act → Listeners × List Empty
  | .create topic => (s.newShmListener topic, [])
  | .close l => (s.close l, [])

/-- `shmPublish` sends one datagram, to the listener bound at the path. -/
def notified (s : Listeners) (topic : Str) : Option Nat := s.sockets (shmSocketPath topic)

def ReachesAll (s : Listeners) : Prop :=
  ∀ topic l, s.topics[l]? = some (some topic) → s.notified topic = some l

def Alone (s : Listeners) : Act → Prop
  | .create topic => ∀ t, some t ∈ s.topics → shmSocketPath t ≠ shmSocketPath topic
  | .close _ => True

variable {s : Listeners}

theorem reachesAll_newShmListener_iff (h : s.ReachesAll) (topic : Str) :
    (s.newShmListener topic).ReachesAll ↔ s.Alone (.create topic) := by
  have hbound (t : Str) : (s.newShmListener topic).notified t =
      if shmSocketPath t = shmSocketPath topic then some s.topics.length else s.notified t := by
    by_cases hpath : shmSocketPath t = shmSocketPath topic
    · simp [newShmListener, notified, hpath]
    · simp [newShmListener, notified, hpath, Table.set_ne, Table.erase_ne]
  constructor
  · intro hall t ht hpath
    obtain ⟨l, hl⟩ := List.mem_iff_getElem?.1 ht
    have hlt := (List.getElem?_eq_some_iff.1 hl).1
    have hreach := hall t l (Parties.concat_iff.2 (.inl hl))
    rw [hbound, if_pos hpath] at hreach
    exact absurd (Option.some.inj hreach) (by omega)
  · intro halone t l hl
    rw [hbound]
    rcases Parties.concat_iff.1 hl with hold | ⟨rfl, ht⟩
    · rw [if_neg (halone t (List.mem_of_getElem? hold))]
      exact h t l hold
    · rw [Option.some.inj ht, if_pos rfl]

theorem reachesAll_close (h : s.ReachesAll) (l : Nat) : (s.close l).ReachesAll := by
  unfold close
  split
  · next topic hl =>
    intro t l' hl'
    obtain ⟨hne, hold⟩ : l' ≠ l ∧ s.topics[l']? = some (some t) := by
      rcases (Parties.set_iff hl).1 hl' with ⟨-, hnone⟩ | h'
      · cases hnone
      · exact h'
    have hpath : shmSocketPath t ≠ shmSocketPath topic := by
      intro hpath
      have hsame := h t l' hold
      rw [notified, hpath] at hsame
      exact hne (Option.some.inj (hsame.symm.trans (h topic l hl)))
    unfold notified
    dsimp only
    rw [Table.erase_ne _ hpath]
    exact h t l' hold
  · exact h

/-- In all states of a run a notification reaches every open subscriber of the topic exactly if each
subscriber is created while none is open at the same path. -/
theorem notification_reaches_all_iff (acts : List Act) :
    (∀ acts₁ acts₂, acts = acts₁ ++ acts₂ → (Run.run step new acts₁).1.ReachesAll) ↔
      Run.Along (fun _ s a => s.Alone a) step [] new acts := by
  refine Run.forall_states_iff_along (D := fun _ _ _ => True) (fun _ s a h _ => ?_)
    (fun topic l h => by cases h) (Run.along_of_forall (fun _ _ _ => trivial) _ _ _)
  cases a with
  | create topic => exact reachesAll_newShmListener_iff h topic
  | close l => exact iff_of_true (reachesAll_close h l) trivial

/-- The second takes the socket from the first, and when the second is closed the first has none. -/
theorem second_subscriber_takes_socket :
    let two := (Run.run step new [.create (str "a"), .create (str "a")]).1
    two.topics = [some (str "a"), some (str "a")] ∧ two.notified (str "a") = some 1 ∧
      (two.close 1).topics = [some (str "a"), none] ∧ (two.close 1).notified (str "a") = none := by
  refine ⟨by decide +kernel, by decide +kernel, by decide +kernel, by decide +kernel⟩

end Listeners

end GoDDS.Shmem
