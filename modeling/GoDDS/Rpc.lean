import GoDDS.Lib.Bytes
import GoDDS.Lib.Parties
import GoDDS.Lib.Registry
import GoDDS.Lib.Run

/-!
# Correlation of RPC replies

A `Requester` keeps the reply channel of each outstanding `Request` under its correlation id.
`demux` takes the channel out when a reply comes in and then, the lock released, sends the sample
on. A `Request` waits for it, or gives up and takes its channel out itself.
-/

namespace GoDDS.Rpc

open ByteCodec Parties

variable {Rep : Type*}

def decodeRPC (data : Bytes) : Option (Bytes × Bytes) :=
  if data.length < 16 then none else some (data.take 16, data.drop 16)

inductive Outcome (Rep : Type*) where
  | failed
  | replied (sample : Nat) (value : Option Rep)

structure Call (Rep : Type*) where
  id : Bytes
  chan : Option Nat
  outcome : Option (Outcome Rep)

/-- A requester. Samples are numbered as `demux` takes them, each with the call whose channel it
found; `hand` is about to be sent. -/
structure Requester (Rep : Type*) where
  calls : List (Call Rep)
  pending : Table Bytes Nat
  seen : List (Bytes × Option Nat)
  hand : Option (Nat × Nat)

/-- A `Request` enters its channel, fails (taking it out unless the requester is closed) or
receives; `demux` takes a sample or sends it on. -/
inductive Act where
  | enter (id : Bytes)
  | fail (i : Nat) (closed : Bool)
  | receive (i : Nat)
  | take (payload : Bytes)
  | send

namespace Requester

def new : Requester Rep := ⟨[], Table.empty, [], none⟩

def setCall (s : Requester Rep) (i : Nat) (c : Call Rep) : Requester Rep :=
  { s with calls := s.calls.set i c }

def step (unmarshal : Bytes → Option Rep) (s : Requester Rep) : Act → Requester Rep × List Empty
  | .enter id =>
    ({ s with calls := s.calls ++ [⟨id, none, none⟩], pending := s.pending.set id s.calls.length }, [])
  | .fail i closed =>
    match s.calls[i]? with
    | none => (s, [])
    | some c =>
      if c.outcome.isSome then (s, [])
      else ({ s.setCall i { c with outcome := some .failed } with
        pending := if closed then s.pending else s.pending.erase c.id }, [])
  | .receive i =>
    match s.calls[i]? with
    | none => (s, [])
    | some c =>
      match c.chan with
      | none => (s, [])
      | some k =>
        let body := (s.seen[k]?.bind fun x => decodeRPC x.1).map Prod.snd
        if c.outcome.isSome then (s, [])
        else (s.setCall i { c with
          chan := none, outcome := some (.replied k (body.bind unmarshal)) }, [])
  | .take payload =>
    match s.hand, (decodeRPC payload).bind (fun x => (s.pending x.1).map (x.1, ·)) with
    | none, some (id, j) =>
      ({ s with
        pending := s.pending.erase id
        seen := s.seen ++ [(payload, some j)]
        hand := some (s.seen.length, j) }, [])
    | none, none => ({ s with seen := s.seen ++ [(payload, none)] }, [])
    | some _, _ => (s, [])
  | .send =>
    match s.hand with
    | none => (s, [])
    | some (k, j) =>
      match s.calls[j]? with
      | some c => ({ s.setCall j { c with chan := c.chan.or (some k) } with hand := none }, [])
      | none => (s, [])

abbrev Has (s : Requester Rep) (i : Nat) (c : Call Rep) : Prop := s.calls[i]? = some c

/-- Sample `k` is one with the id of call `i`, whose channel was found for it; `body` follows the
id. -/
def For (s : Requester Rep) (k i : Nat) (body : Bytes) : Prop :=
  ∃ c p, s.Has i c ∧ s.seen[k]? = some (p, some i) ∧ decodeRPC p = some (c.id, body)

/-- A value returned was got from a sample with the call's own id, and no sample is got by two. -/
structure Correlated (unmarshal : Bytes → Option Rep) (s : Requester Rep) : Prop where
  own : ∀ i c k v, s.Has i c → c.outcome = some (.replied k (some v)) →
    ∃ p body, s.seen[k]?.map Prod.fst = some p ∧ decodeRPC p = some (c.id, body) ∧
      unmarshal body = some v
  once : ∀ i j c d k v w, s.Has i c → s.Has j d →
    c.outcome = some (.replied k v) → d.outcome = some (.replied k w) → i = j

structure Inv (unmarshal : Bytes → Option Rep) (s : Requester Rep) : Prop where
  pending : ∀ id j, s.pending id = some j → ∃ c, s.Has j c ∧ c.id = id
  hand : ∀ k j, s.hand = some (k, j) → ∃ body, s.For k j body
  chan : ∀ i c k, s.Has i c → c.chan = some k → ∃ body, s.For k i body
  outcome : ∀ i c k v, s.Has i c → c.outcome = some (.replied k v) →
    ∃ body, s.For k i body ∧ v = unmarshal body

variable {unmarshal : Bytes → Option Rep} {s t : Requester Rep} {i j k : Nat} {c c' : Call Rep}
  {body : Bytes}

structure Grows (s t : Requester Rep) : Prop where
  calls : ∀ i c, s.Has i c → ∃ c', t.Has i c' ∧ c'.id = c.id
  seen : ∀ (k : Nat) x, s.seen[k]? = some x → t.seen[k]? = some x

theorem Grows.for (h : Grows s t) (hk : s.For k i body) : t.For k i body := by
  obtain ⟨c, p, hc, hp, hdec⟩ := hk
  obtain ⟨c', hc', hid⟩ := h.calls i c hc
  exact ⟨c', p, hc', h.seen k _ hp, hid ▸ hdec⟩

theorem grows_setCall (hc : s.Has i c) (hid : c'.id = c.id) : Grows s (s.setCall i c') := by
  refine ⟨fun j d hd => ?_, fun _ _ h => h⟩
  by_cases hj : j = i
  · subst hj
    obtain rfl := Option.some.inj (hc.symm.trans hd)
    exact ⟨c', (set_iff hc).2 (.inl ⟨rfl, rfl⟩), hid⟩
  · exact ⟨d, (set_iff hc).2 (.inr ⟨hj, hd⟩), rfl⟩

theorem Inv.setCall (h : Inv unmarshal s) (hc : s.Has i c) (hid : c'.id = c.id)
    (hchan : ∀ k, c'.chan = some k → ∃ body, s.For k i body)
    (hout : ∀ k v, c'.outcome = some (.replied k v) → ∃ body, s.For k i body ∧ v = unmarshal body) :
    Inv unmarshal (s.setCall i c') := by
  have hgrows := grows_setCall hc hid
  refine ⟨fun id j hj => ?_, fun k j hj => (h.hand k j hj).imp fun _ => hgrows.for, ?_, ?_⟩
  · obtain ⟨d, hd, rfl⟩ := h.pending id j hj
    exact hgrows.calls j d hd
  · intro j d k hd hk
    rcases (set_iff hc).1 hd with ⟨rfl, rfl⟩ | ⟨-, hd⟩
    · exact (hchan k hk).imp fun _ => hgrows.for
    · exact (h.chan j d k hd hk).imp fun _ => hgrows.for
  · intro j d k v hd hk
    rcases (set_iff hc).1 hd with ⟨rfl, rfl⟩ | ⟨-, hd⟩
    · exact (hout k v hk).imp fun _ hb => ⟨hgrows.for hb.1, hb.2⟩
    · exact (h.outcome j d k v hd hk).imp fun _ hb => ⟨hgrows.for hb.1, hb.2⟩

theorem Inv.of_grows (h : Inv unmarshal s) (hgrows : Grows s t)
    (hpending : ∀ id j, t.pending id = some j → ∃ c, t.Has j c ∧ c.id = id)
    (hhand : ∀ k j, t.hand = some (k, j) → ∃ body, t.For k j body) (hcalls : ∀ i c, t.Has i c →
      s.Has i c ∨ c.chan = none ∧ c.outcome = none) : Inv unmarshal t := by
  refine ⟨hpending, hhand, fun i c k hc hk => ?_, fun i c k v hc hk => ?_⟩
  · rcases hcalls i c hc with hc | ⟨hnone, -⟩
    · exact (h.chan i c k hc hk).imp fun _ => hgrows.for
    · cases hnone.symm.trans hk
  · rcases hcalls i c hc with hc | ⟨-, hnone⟩
    · exact (h.outcome i c k v hc hk).imp fun _ hb => ⟨hgrows.for hb.1, hb.2⟩
    · cases hnone.symm.trans hk

theorem inv_step (h : Inv unmarshal s) (a : Act) : Inv unmarshal (s.step unmarshal a).1 := by
  cases a with
  | enter id =>
    have hold i c (hc : s.Has i c) := (concat_iff (x := ⟨id, none, none⟩)).2 (.inl hc)
    refine h.of_grows ⟨fun i c hc => ⟨c, hold i c hc, rfl⟩, fun _ _ hk => hk⟩ ?_ ?_ ?_
    · refine Table.forall_set ⟨_, concat_iff.2 (.inr ⟨rfl, rfl⟩), rfl⟩ fun id' j hj => ?_
      obtain ⟨c, hc, hid⟩ := h.pending id' j hj
      exact ⟨c, hold j c hc, hid⟩
    · intro k j hj
      obtain ⟨body, c, p, hc, hp, hdec⟩ := h.hand k j hj
      exact ⟨body, c, p, hold j c hc, hp, hdec⟩
    · intro i c hc
      rcases concat_iff.1 hc with hc | ⟨-, rfl⟩
      · exact .inl hc
      · exact .inr ⟨rfl, rfl⟩
  | fail i closed =>
    rw [step]
    split
    · exact h
    next c hc =>
    by_cases hdone : c.outcome.isSome
    · rw [if_pos hdone]
      exact h
    rw [if_neg hdone]
    have hset : Inv unmarshal (s.setCall i { c with outcome := some .failed }) :=
      h.setCall hc rfl (h.chan i c · hc) (by simp)
    refine ⟨fun id' j hj => hset.pending id' j ?_, hset.hand, hset.chan, hset.outcome⟩
    cases closed with
    | true => exact hj
    | false => exact (Table.erase_eq_some.1 hj).2
  | receive i =>
    rw [step]
    split
    · exact h
    next c hc =>
    split
    · exact h
    next k hk =>
    dsimp only
    split_ifs
    · exact h
    obtain ⟨body, c', p, hc', hp, hdec⟩ := h.chan i c k hc hk
    refine h.setCall hc rfl (by simp) fun k' v heq => ?_
    cases heq
    exact ⟨body, ⟨c', p, hc', hp, hdec⟩, by simp [hp, hdec]⟩
  | take payload =>
    have hold (x) : Grows s { s with seen := s.seen ++ [x] } :=
      ⟨fun i c hc => ⟨c, hc, rfl⟩, fun k y hk => concat_iff.2 (.inl hk)⟩
    rw [step]
    split
    · next id j hhand hfound =>
      obtain ⟨⟨id', body⟩, hdec, hj⟩ := Option.bind_eq_some_iff.1 hfound
      obtain ⟨j', hj', heq⟩ := Option.map_eq_some_iff.1 hj
      cases heq
      obtain ⟨c, hc, rfl⟩ := h.pending _ _ hj'
      refine h.of_grows ⟨(hold (payload, some j)).calls, (hold (payload, some j)).seen⟩
        (fun id' j' hj => h.pending id' j' (Table.erase_eq_some.1 hj).2) ?_ fun i c hc => .inl hc
      rintro k i heq
      cases heq
      exact ⟨body, c, payload, hc, concat_iff.2 (.inr ⟨rfl, rfl⟩), hdec⟩
    · exact h.of_grows (hold _) h.pending (fun k j hj => (h.hand k j hj).imp fun _ => (hold _).for)
        fun i c hc => .inl hc
    · exact h
  | send =>
    rw [step]
    split
    · exact h
    · next k j hhand =>
      split
      · next c hc =>
        have hset : Inv unmarshal (s.setCall j { c with chan := c.chan.or (some k) }) := by
          refine h.setCall hc rfl (fun k' hk' => ?_) (h.outcome j c · · hc)
          rcases Option.or_eq_some_iff.1 hk' with hk' | ⟨-, hk'⟩
          · exact h.chan j c k' hc hk'
          · cases hk'
            exact h.hand k j hhand
        exact ⟨hset.pending, by simp, hset.chan, hset.outcome⟩
      · exact h

theorem Inv.correlated (h : Inv unmarshal s) : Correlated unmarshal s := by
  refine ⟨fun i c k v hc hv => ?_, fun i j c d k v w hc hd hv hw => ?_⟩
  · obtain ⟨body, ⟨c', p, hc', hp, hdec⟩, heq⟩ := h.outcome i c k _ hc hv
    obtain rfl := Option.some.inj (hc.symm.trans hc')
    exact ⟨p, body, by rw [hp]; rfl, hdec, heq.symm⟩
  · obtain ⟨-, ⟨-, p, -, hp, -⟩, -⟩ := h.outcome i c k v hc hv
    obtain ⟨-, ⟨-, p', -, hp', -⟩, -⟩ := h.outcome j d k w hd hw
    have heq := hp.symm.trans hp'
    simp_all

/-- In every run a `Request` that returns has got a sample with its own id, and no sample is got by
two. Nothing is assumed about the ids. -/
theorem correlated_run (unmarshal : Bytes → Option Rep) (acts : List Act) :
    Correlated unmarshal (Run.run (step unmarshal) new acts).1 := by
  have hnew : Inv unmarshal (new : Requester Rep) :=
    ⟨nofun, nofun, by simp [new], by simp [new]⟩
  exact (Run.run_invariant (I := Inv unmarshal) (fun _ a h => inv_step h a) hnew acts).correlated

abbrev Unanswered (c : Call Rep) (id : Bytes) : Prop :=
  c.id = id ∧ c.chan = none ∧ ∀ k v, c.outcome ≠ some (.replied k v)

/-- A pending call has no reply, and none is on its way; a reply on its way finds an empty
channel. -/
structure Awaits (s : Requester Rep) : Prop where
  pending : ∀ id i c, s.pending id = some i → s.Has i c →
    Unanswered c id ∧ ∀ k, s.hand ≠ some (k, i)
  hand : ∀ k i c, s.hand = some (k, i) → s.Has i c → c.chan = none

theorem Awaits.setCall (h : s.Awaits) (hc : s.Has i c)
    (hpending : ∀ id, s.pending id = some i → Unanswered c' id)
    (hhand : ∀ k, s.hand = some (k, i) → c'.chan = none) : (s.setCall i c').Awaits := by
  refine ⟨fun id j d hj hd => ?_, fun k j d hj hd => ?_⟩
  all_goals rcases (set_iff hc).1 hd with ⟨rfl, rfl⟩ | ⟨-, hd⟩
  · exact ⟨hpending id hj, (h.pending id j c hj hc).2⟩
  · exact h.pending id j d hj hd
  · exact hhand k hj
  · exact h.hand k j d hj hd

theorem Inv.awaits_step (hs : Inv unmarshal s) (h : s.Awaits) (a : Act) :
    (s.step unmarshal a).1.Awaits := by
  cases a with
  | enter id =>
    obtain ⟨hin, hto, -, -⟩ := hs
    obtain ⟨hpending, hhand⟩ := h
    constructor
    all_goals
      simp only [step, Has, concat_iff, Table.set_eq_some]
      grind [For]
  | fail i closed =>
    rw [step]
    split
    · exact h
    next c hc =>
    have hset : (s.setCall i { c with outcome := some .failed }).Awaits := by
      refine h.setCall hc (fun id hi => ?_) (h.hand · i c · hc)
      obtain ⟨⟨hid, hchan, -⟩, -⟩ := h.pending id i c hi hc
      exact ⟨hid, hchan, by simp⟩
    split_ifs
    · exact h
    · exact hset
    · exact ⟨fun id j d hj => hset.pending id j d (Table.erase_eq_some.1 hj).2, hset.hand⟩
  | receive i =>
    rw [step]
    split
    · exact h
    next c hc =>
    split
    · exact h
    next k hk =>
    dsimp only
    split_ifs
    · exact h
    · exact h.setCall hc (fun id hi => by simp [(h.pending id i c hi hc).1.2.1] at hk) fun _ _ => rfl
  | take payload =>
    rw [step]
    split
    next id j hhand hfound =>
      obtain ⟨hpending, -⟩ := h
      simp only [Option.bind_eq_some_iff, Option.map_eq_some_iff] at hfound
      constructor <;> grind [Table.erase_eq_some]
    · exact ⟨h.pending, h.hand⟩
    · exact h
  | send =>
    rw [step]
    split
    · exact h
    next k j hk =>
    split
    next c hc =>
      have h' : Awaits { s with hand := none } :=
        ⟨fun id i d hi hd => ⟨(h.pending id i d hi hd).1, by simp⟩, by simp⟩
      exact h'.setCall hc (fun id hi => absurd hk ((h.pending id j c hi hc).2 k)) (by simp)
    · exact h

/-- No reply is dropped: `demux` finds the channel it is about to send to empty, and a call that is
pending has got no reply. -/
theorem replies_not_dropped (unmarshal : Bytes → Option Rep) (acts : List Act) :
    let s := (Run.run (step unmarshal) new acts).1
    (∀ k i, s.hand = some (k, i) → ∃ c, s.Has i c ∧ c.chan = none) ∧
      ∀ id i, s.pending id = some i → ∃ c, s.Has i c ∧ Unanswered c id := by
  have hnew : Inv unmarshal (new : Requester Rep) ∧ (new : Requester Rep).Awaits := by
    constructor <;> constructor <;> simp [new]
  obtain ⟨hinv, hawaits⟩ := Run.run_invariant (I := fun s => Inv unmarshal s ∧ s.Awaits)
    (fun _ a h => ⟨inv_step h.1 a, h.1.awaits_step h.2 a⟩) hnew acts
  refine ⟨fun k i hi => ?_, fun id i hi => ?_⟩
  · obtain ⟨-, c, -, hc, -⟩ := hinv.hand k i hi
    exact ⟨c, hc, hawaits.hand k i c hi hc⟩
  · obtain ⟨c, hc, -⟩ := hinv.pending id i hi
    exact ⟨c, hc, (hawaits.pending id i c hi hc).1⟩

end Requester

end GoDDS.Rpc
