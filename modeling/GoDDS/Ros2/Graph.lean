import GoDDS.Lib.Parties
import GoDDS.Lib.Run
import GoDDS.Rtps.Guid

/-!
# Announcing the graph
-/

namespace GoDDS.Ros2

open ByteCodec List

abbrev Gid := FixedBytes 24

def gidFromRTPS (guid : GUID) : Gid :=
  FixedBytes.copy 24 (guid.guidPrefix.toBytes ++ guid.entity.toBytes)

structure NodeEntitiesInfo where
  nodeNamespace : Bytes
  nodeName : Bytes
  readerGidSeq : List Gid
  writerGidSeq : List Gid
  deriving DecidableEq

structure ParticipantEntitiesInfo where
  gid : Gid
  nodeEntitiesInfoSeq : List NodeEntitiesInfo
  deriving DecidableEq

inductive Kind where
  | reader
  | writer
  deriving DecidableEq

def NodeEntitiesInfo.gids (n : NodeEntitiesInfo) : Kind → List Gid
  | .reader => n.readerGidSeq
  | .writer => n.writerGidSeq

def NodeEntitiesInfo.add (n : NodeEntitiesInfo) (g : Gid) : Kind → NodeEntitiesInfo
  | .reader => { n with readerGidSeq := n.readerGidSeq ++ [g] }
  | .writer => { n with writerGidSeq := n.writerGidSeq ++ [g] }

/-- How far a `NewPublisher` or `NewSubscriber` has come: its endpoint is there, is listed, and the
list has been taken and is about to be written. -/
inductive Call where
  | created (k : Kind) (g : Gid)
  | listed
  | writing (info : ParticipantEntitiesInfo)
  | returned
  deriving DecidableEq

/-- All endpoints are announced whenever one has been created (`publishGraph`). The list is taken
under the lock and written later, so an older list may be written over a newer one.
Closing changes nothing. -/
structure Participant where
  gid : Gid
  nodeEntities : NodeEntitiesInfo
  calls : List Call
  opened : List (Kind × Gid)
  written : ParticipantEntitiesInfo

/-- A call creates its endpoint (if it fails, nothing) or goes on, or an endpoint is closed. `ok` if
a write succeeds. -/
inductive Act where
  | create (k : Kind) (guid : GUID)
  | advance (i : Nat) (ok : Bool)
  | close (k : Kind) (g : Gid)

namespace Participant

def graph (p : Participant) : ParticipantEntitiesInfo := ⟨p.gid, [p.nodeEntities]⟩

def new (gid : Gid) (nodeNamespace nodeName : Bytes) : Participant :=
  ⟨gid, ⟨nodeNamespace, nodeName, [], []⟩, [], [], ⟨gid, [⟨nodeNamespace, nodeName, [], []⟩]⟩⟩

def step (p : Participant) : Act → Participant × List Empty
  | .create k guid =>
    ({ p with
        opened := p.opened ++ [(k, gidFromRTPS guid)]
        calls := p.calls ++ [.created k (gidFromRTPS guid)] }, [])
  | .advance i ok =>
    match p.calls[i]? with
    | some (.created k g) =>
      ({ p with nodeEntities := p.nodeEntities.add g k, calls := p.calls.set i .listed }, [])
    | some .listed => ({ p with calls := p.calls.set i (.writing p.graph) }, [])
    | some (.writing info) =>
      ({ p with calls := p.calls.set i .returned, written := if ok then info else p.written }, [])
    | _ => (p, [])
  | .close k g => ({ p with opened := p.opened.filter (· ≠ (k, g)) }, [])

def Current (p : Participant) : Prop :=
  ∀ k g, (∃ n ∈ p.written.nodeEntitiesInfoSeq, g ∈ n.gids k) ↔ (k, g) ∈ p.opened

/-- No endpoint is closed, and a list is written, but not over the present one if it is older. -/
def Orderly (p : Participant) : Act → Prop
  | .create _ _ => True
  | .advance i ok => ∀ info, p.calls[i]? = some (.writing info) →
      ok ∧ (p.written = p.graph → info = p.graph)
  | .close _ _ => False

/-- The open endpoints are listed, or about to be. The present list is written, or a call is going
to write it. -/
structure Inv (p : Participant) : Prop where
  opened : ∀ k g, (k, g) ∈ p.opened ↔ g ∈ p.nodeEntities.gids k ∨ .created k g ∈ p.calls
  announced : p.written = p.graph ∨ .listed ∈ p.calls ∨ .writing p.graph ∈ p.calls

open NodeEntitiesInfo

theorem mem_gids_add {n : NodeEntitiesInfo} {g g' : Gid} {k k' : Kind} :
    g' ∈ (n.add g k).gids k' ↔ g' ∈ n.gids k' ∨ k' = k ∧ g' = g := by
  cases k <;> cases k' <;> simp [add, gids]

theorem mem_set_of_ne {calls : List Call} {i : Nat} {c c' x : Call} (hi : calls[i]? = some c)
    (hx : x ≠ c) : x ∈ calls.set i c' ↔ x = c' ∨ x ∈ calls := by
  simp only [mem_iff_getElem?, Parties.set_iff hi]
  constructor
  · rintro ⟨j, ⟨-, rfl⟩ | ⟨-, hj⟩⟩
    exacts [.inl rfl, .inr ⟨j, hj⟩]
  · rintro (rfl | ⟨j, hj⟩)
    · exact ⟨i, .inl ⟨rfl, rfl⟩⟩
    · refine ⟨j, .inr ⟨?_, hj⟩⟩
      rintro rfl
      exact hx (Option.some.inj (hj.symm.trans hi))

theorem inv_step {p : Participant} (h : p.Inv) {a : Act} (ha : p.Orderly a) : (p.step a).1.Inv := by
  cases a with
  | close k g => exact ha.elim
  | create k guid =>
    refine ⟨fun k' g' => ?_, h.announced.imp_right (Or.imp ?_ ?_)⟩
    · simp only [step, mem_append, mem_singleton, h.opened, Call.created.injEq,
        Prod.mk.injEq, or_assoc]
    all_goals exact mem_append_left _
  | advance i ok =>
    rw [step]
    split
    next k g hi =>
      refine ⟨fun k' g' => ?_, .inr (.inl (mem_set (List.getElem?_eq_some_iff.1 hi).1 _))⟩
      rw [h.opened, mem_gids_add]
      by_cases hg : k' = k ∧ g' = g
      · obtain ⟨rfl, rfl⟩ := hg
        exact iff_of_true (.inr (mem_of_getElem? hi)) (.inl (.inr ⟨rfl, rfl⟩))
      · rw [mem_set_of_ne hi (by simpa using hg)]
        simp [hg]
    next hi =>
      refine ⟨fun k' g' => ?_, .inr (.inr (mem_set (List.getElem?_eq_some_iff.1 hi).1 _))⟩
      simp [h.opened, mem_set_of_ne hi]
    next info hi =>
      obtain ⟨rfl, hstale⟩ := ha info hi
      refine ⟨fun k' g' => ?_, ?_⟩
      · simp [h.opened, mem_set_of_ne hi]
      · -- the call that is to write the present list may be this one
        by_cases hinfo : info = p.graph
        · exact .inl hinfo
        · refine .inr (h.announced.elim (fun hw => absurd (hstale hw) hinfo) (Or.imp ?_ ?_))
          · exact fun hmem => (mem_set_of_ne hi (by simp)).2 (.inr hmem)
          · exact fun hmem => (mem_set_of_ne hi (hinfo ∘ (Call.writing.inj · |>.symm))).2 (.inr hmem)
    · exact h

/-- In every run in which no endpoint is closed, every announcement is written, and no older list is
written over the present one, the last announcement lists exactly the open endpoints once all calls
have returned. -/
theorem current_of_returned {gid : Gid} {nodeNamespace nodeName : Bytes} {acts : List Act}
    (h : Run.Along (fun _ p a => p.Orderly a) step [] (new gid nodeNamespace nodeName) acts)
    (hret : ∀ c ∈ (Run.run step (new gid nodeNamespace nodeName) acts).1.calls, c = .returned) :
    (Run.run step (new gid nodeNamespace nodeName) acts).1.Current := by
  have hinv : (Run.run step (new gid nodeNamespace nodeName) acts).1.Inv :=
    Run.run_induction (J := fun p _ _ => p.Inv) (fun _ _ _ _ ha hp => inv_step hp ha)
      ⟨fun k g => by cases k <;> simp [new, gids], .inl rfl⟩ h
  have hwritten := hinv.announced.resolve_right
    (Or.rec (fun hc => nomatch hret _ hc) fun hc => nomatch hret _ hc)
  intro k g
  rw [hwritten, hinv.opened]
  simp only [graph, mem_singleton, exists_eq_left]
  exact ⟨.inl, Or.rec id fun hc => nomatch hret _ hc⟩

def guidOf (n : UInt8) : GUID := ⟨FixedBytes.copy 12 [], FixedBytes.copy 4 [n]⟩

theorem current_of_two_calls :
    (Run.run step (new (gidFromRTPS (guidOf 0)) [] []) [.create .writer (guidOf 1),
      .create .reader (guidOf 2), .advance 0 true, .advance 0 true, .advance 1 true,
      .advance 1 true, .advance 0 true, .advance 1 true]).1.Current :=
  current_of_returned (by simp [Run.Along, Orderly, step, new, graph, add]) (by decide +kernel)

/-- **A closed endpoint stays listed, and an older list may come last.** -/
theorem graph_not_current :
    let run acts := (Run.run step (new (gidFromRTPS (guidOf 0)) [] []) acts).1
    let closed := run [.create .writer (guidOf 1), .advance 0 true, .advance 0 true,
      .advance 0 true, .close .writer (gidFromRTPS (guidOf 1))]
    let late := run [.create .writer (guidOf 1), .create .writer (guidOf 2), .advance 0 true,
      .advance 0 true, .advance 1 true, .advance 1 true, .advance 1 true, .advance 0 true]
    let lists p := p.written.nodeEntitiesInfoSeq.map (·.writerGidSeq)
    closed.calls = [.returned] ∧ closed.opened = [] ∧
      lists closed = [[gidFromRTPS (guidOf 1)]] ∧
      late.calls = [.returned, .returned] ∧
      late.opened = [(.writer, gidFromRTPS (guidOf 1)), (.writer, gidFromRTPS (guidOf 2))] ∧
      lists late = [[gidFromRTPS (guidOf 1)]] := by decide +kernel

end Participant

end GoDDS.Ros2
