import GoDDS.Lib.Go
import GoDDS.Lib.Registry
import GoDDS.Lib.Run
import Mathlib.Data.Finset.Image

/-!
# The JavaScript client

`DDSClient` of `index.ts`. A subscription is sent when it is made if the socket is open, and again
with all others when a socket opens; what is published while none is open is sent then, too.
-/

namespace GoDDS.JsClient

open ByteCodec Go List Registry

inductive Frame where
  | subscribe (topic : Str)
  | unsubscribe (topic : Str)
  | publish (sample : Str × Bytes)
  deriving DecidableEq

def Frame.sample? : Frame → Option (Str × Bytes)
  | .publish x => some x
  | _ => none

/-- `closing`: no longer open, and `onclose` has not been called. -/
inductive Socket where
  | connecting
  | opened
  | closing
  deriving DecidableEq

/-- Handlers are numbered; functions are told apart by identity. -/
structure Subscription where
  topic : Str
  handlers : Finset Nat

structure Unsubscribe where
  topic : Str
  handler : Nat
  unsubscribed : Bool

/-- A client. `sent` are the frames sent on the present socket, and `timer` tells that `setTimeout`
has been called. The newest subscription comes first. -/
structure Client where
  reconnect : Bool
  ws : Option Socket
  closedByCaller : Bool
  timer : Bool
  outbox : List (Str × Bytes)
  subscriptions : Registry Subscription.topic
  returned : List Unsubscribe
  sent : List Frame

/-- `opened`: `onopen` is called, which is one task. `failed`: the connection ends or is not
established. `closed`: `onclose` is called. -/
inductive Event where
  | opened
  | failed
  | closed
  | timeout
  | subscribeRaw (topic : Str) (handler : Nat)
  | unsubscribe (i : Nat)
  | publishRaw (sample : Str × Bytes)
  | close

def Event.sample? : Event → Option (Str × Bytes)
  | .publishRaw x => some x
  | _ => none

namespace Client

def new (reconnect : Bool) : Client :=
  ⟨reconnect, some .connecting, false, false, [], Registry.empty, [], []⟩

def send (c : Client) (frames : List Frame) : Client × List Frame :=
  ({ c with sent := c.sent ++ frames }, frames)

def sendIfOpen (c : Client) (f : Frame) : Client × List Frame :=
  if c.ws = some .opened then c.send [f] else (c, [])

def update (c : Client) (topic : Str) (f : Finset Nat → Finset Nat) : Client :=
  { c with subscriptions :=
      c.subscriptions.modify topic (fun s => { s with handlers := f s.handlers }) fun _ => rfl }

def subscribeRaw (c : Client) (topic : Str) (handler : Nat) : Client × List Frame :=
  let c := { c with returned := c.returned ++ [Unsubscribe.mk topic handler false] }
  match c.subscriptions.get? topic with
  | none =>
    sendIfOpen { c with subscriptions := c.subscriptions.insert ⟨topic, {handler}⟩ } (.subscribe topic)
  | some _ => (c.update topic (insert handler), [])

def unsubscribe (c : Client) (i : Nat) : Client × List Frame :=
  match c.returned[i]? with
  | some ⟨topic, handler, false⟩ =>
    let c := { c with returned := c.returned.set i ⟨topic, handler, true⟩ }
    match c.subscriptions.get? topic with
    | none => (c, [])
    | some current =>
      if current.handlers.erase handler = ∅ then
        sendIfOpen { c with subscriptions := c.subscriptions.erase topic } (.unsubscribe topic)
      else (c.update topic (·.erase handler), [])
  | _ => (c, [])

def step (c : Client) : Event → Client × List Frame
  | .opened =>
    if c.ws = some .connecting then
      send { c with ws := some .opened, outbox := [] }
        (c.outbox.map .publish ++ c.subscriptions.items.reverse.map fun s => .subscribe s.topic)
    else (c, [])
  | .failed => (if c.ws = none then c else { c with ws := some .closing }, [])
  | .closed =>
    if c.ws = some .closing then
      ({ c with ws := none, timer := !c.closedByCaller && c.reconnect }, [])
    else (c, [])
  | .timeout =>
    if c.timer && !c.closedByCaller then
      ({ c with timer := false, ws := some .connecting, sent := [] }, [])
    else (c, [])
  | .subscribeRaw topic handler => c.subscribeRaw topic handler
  | .unsubscribe i => c.unsubscribe i
  | .publishRaw x =>
    if c.ws = some .opened then c.send [.publish x] else ({ c with outbox := c.outbox ++ [x] }, [])
  | .close => ({ c with closedByCaller := true, ws := none }, [])

end Client

/-! ## The frames on a socket -/

def hear (topics : Finset Str) : Frame → Option (Finset Str)
  | .subscribe t => if t ∈ topics then none else some (insert t topics)
  | .unsubscribe t => some (topics.erase t)
  | .publish _ => some topics

/-- The topics frames subscribe to, if none is subscribed to twice. -/
def subscribed (frames : List Frame) : Option (Finset Str) := frames.foldlM hear ∅

def topics (R : Registry Subscription.topic) : Finset Str := (R.items.map Subscription.topic).toFinset

/-- The effect of a call on the functions returned so far and on the handlers of all topics. -/
def register (s : List Unsubscribe × Finset (Str × Nat)) :
    Event → List Unsubscribe × Finset (Str × Nat)
  | .subscribeRaw topic handler => (s.1 ++ [⟨topic, handler, false⟩], insert (topic, handler) s.2)
  | .unsubscribe i =>
    match s.1[i]? with
    | some ⟨topic, handler, false⟩ => (s.1.set i ⟨topic, handler, true⟩, s.2.erase (topic, handler))
    | _ => s
  | _ => s

/-- The handlers that the calls leave, each with its topic. -/
def registered (events : List Event) : Finset (Str × Nat) := (events.foldl register ([], ∅)).2

open JsClient.Frame

theorem foldlM_publish (xs : List (Str × Bytes)) (topics : Finset Str) :
    (xs.map publish).foldlM hear topics = some topics := by
  induction xs with
  | nil => rfl
  | cons x xs ih => exact ih

open Subscription

theorem foldlM_subscribe {ss : List Subscription} (h : (ss.map topic).Nodup) {T : Finset Str}
    (hnew : ∀ s ∈ ss, s.topic ∉ T) : (ss.map fun s => subscribe s.topic).foldlM hear T =
      some (T ∪ (ss.map topic).toFinset) := by
  induction ss generalizing T with
  | nil => simp
  | cons s ss ih =>
    rw [map_cons, nodup_cons] at h
    rw [forall_mem_cons] at hnew
    have hrest : ∀ s' ∈ ss, s'.topic ∉ insert s.topic T := by
      intro s' hs' hmem
      rcases Finset.mem_insert.1 hmem with heq | hmem
      · exact h.1 (heq ▸ mem_map_of_mem hs')
      · exact hnew.2 s' hs' hmem
    rw [map_cons, foldlM_cons, hear, if_neg hnew.1]
    refine (ih h.2 hrest).trans (congrArg some ?_)
    ext t
    simp only [map_cons, toFinset_cons, Finset.mem_union, Finset.mem_insert]
    grind

section Topics

variable (R : Registry Subscription.topic) (topic : Str)

theorem topics_insert (s : Subscription) : topics (R.insert s) = insert s.topic (topics R) := by
  ext t
  simp only [topics, mem_toFinset, mem_map, mem_insert, Finset.mem_insert]
  grind

theorem topics_erase : topics (R.erase topic) = (topics R).erase topic := by
  ext t
  simp only [topics, erase, mem_toFinset, mem_map, Finset.mem_erase]
  grind [items_filter]

end Topics

namespace Client

/-- Every topic has a handler; an open socket has heard of all topics, and nothing is queued
then. -/
structure Inv (c : Client) (events : List Event) (frames : List Frame) : Prop where
  handled : ∀ s ∈ c.subscriptions.items, s.handlers.Nonempty
  opened : c.ws = some .opened → subscribed c.sent = some (topics c.subscriptions) ∧ c.outbox = []
  fresh : c.ws = some .connecting → c.sent = []
  ordered : frames.filterMap Frame.sample? ++ c.outbox = events.filterMap Event.sample?

variable {c c' : Client} {events : List Event} {frames : List Frame} {e : Event} {f : Frame}

theorem topics_update (c : Client) (topic : Str) (f : Finset Nat → Finset Nat) :
    topics (c.update topic f).subscriptions = topics c.subscriptions := by
  ext t
  simp only [topics, update, Registry.modify, List.mem_toFinset, List.mem_map, Registry.items_map]
  grind

theorem handled_update {topic : Str} {f : Finset Nat → Finset Nat}
    (h : ∀ s ∈ c.subscriptions.items, s.handlers.Nonempty)
    (hf : ∀ s ∈ c.subscriptions.items, s.topic = topic → (f s.handlers).Nonempty) :
    ∀ s ∈ (c.update topic f).subscriptions.items, s.handlers.Nonempty := by
  intro s hs
  obtain ⟨s₀, hs₀, rfl⟩ := mem_map.1 hs
  split_ifs with htopic
  · exact hf s₀ hs₀ htopic
  · exact h s₀ hs₀

theorem Inv.silent (h : Inv c events frames) (he : e.sample? = none) (hout : c'.outbox = c.outbox)
    (hhandled : ∀ s ∈ c'.subscriptions.items, s.handlers.Nonempty)
    (hopened : c'.ws = some .opened → c.ws = some .opened ∧ c'.sent = c.sent ∧
      topics c'.subscriptions = topics c.subscriptions)
    (hfresh : c'.ws = some .connecting → c'.sent = []) : Inv c' (events ++ [e]) (frames ++ []) where
  handled := hhandled
  opened ho := by
    obtain ⟨ho, hsent, htopics⟩ := hopened ho
    rw [hsent, htopics, hout]
    exact h.opened ho
  fresh := hfresh
  ordered := by simp [he, hout, h.ordered]

theorem Inv.idle (h : Inv c events frames) (he : e.sample? = none) :
    Inv c (events ++ [e]) (frames ++ []) :=
  h.silent he rfl h.handled (fun ho => ⟨ho, rfl, rfl⟩) h.fresh

theorem Inv.tell (h : Inv c events frames) (he : e.sample? = none) (hf : f.sample? = none)
    (hws : c'.ws = c.ws) (hsent : c'.sent = c.sent) (hout : c'.outbox = c.outbox)
    (hhear : hear (topics c.subscriptions) f = some (topics c'.subscriptions))
    (hhandled : ∀ s ∈ c'.subscriptions.items, s.handlers.Nonempty) :
    Inv (c'.sendIfOpen f).1 (events ++ [e]) (frames ++ (c'.sendIfOpen f).2) := by
  have hfresh : c'.ws = some .connecting → c'.sent = [] := hws ▸ hsent ▸ h.fresh
  rw [sendIfOpen]
  split_ifs with ho
  · obtain ⟨hsynced, hempty⟩ := h.opened (hws ▸ ho)
    refine ⟨hhandled, fun _ => ⟨?_, hout.trans hempty⟩, fun hc => absurd (ho.symm.trans hc) nofun, ?_⟩
    · show subscribed (c'.sent ++ [f]) = some (topics c'.subscriptions)
      rw [hsent, subscribed, foldlM_append, ← subscribed, hsynced]
      simpa using hhear
    · simp [send, he, hf, hout, h.ordered]
  · exact h.silent he hout hhandled (fun hc => absurd hc ho) hfresh

theorem Inv.step (h : Inv c events frames) (e : Event) :
    Inv (c.step e).1 (events ++ [e]) (frames ++ (c.step e).2) := by
  cases e with
  | opened =>
    rw [Client.step]
    split_ifs with hws
    · refine ⟨h.handled, fun _ => ⟨?_, rfl⟩, by simp [send], ?_⟩
      · have hnodup : (c.subscriptions.items.reverse.map topic).Nodup := by
          rw [map_reverse]
          exact nodup_reverse.2 c.subscriptions.nodup
        have hall := foldlM_subscribe hnodup (T := ∅) (fun _ _ => Finset.notMem_empty _)
        show subscribed (c.sent ++ _) = some (topics c.subscriptions)
        rw [h.fresh hws, nil_append, subscribed, foldlM_append, foldlM_publish]
        exact hall.trans (by simp [topics])
      · have hnone : Event.sample? .opened = none := rfl
        simp [send, hnone, ← h.ordered, filterMap_map, Function.comp_def, sample?]
    · exact h.idle rfl
  | failed =>
    rw [Client.step]
    split_ifs with hws
    · exact h.idle rfl
    · exact h.silent rfl rfl h.handled (by simp) (by simp)
  | closed =>
    rw [Client.step]
    split_ifs with hws
    · exact h.silent rfl rfl h.handled (by simp) (by simp)
    · exact h.idle rfl
  | timeout =>
    rw [Client.step]
    split_ifs with hws
    · exact h.silent rfl rfl h.handled (by simp) fun _ => rfl
    · exact h.idle rfl
  | subscribeRaw topic handler =>
    rw [Client.step, subscribeRaw]
    dsimp only
    cases hget : c.subscriptions.get? topic with
    | none =>
      refine h.tell rfl rfl rfl rfl rfl ?_ fun s hs => ?_
      · have hnew : topic ∉ topics c.subscriptions := by simpa [topics, get?] using hget
        rw [topics_insert, hear, if_neg hnew]
      · rcases mem_insert.1 hs with rfl | ⟨hs, -⟩
        · exact Finset.singleton_nonempty handler
        · exact h.handled s hs
    | some current =>
      exact h.silent rfl rfl (handled_update h.handled fun _ _ _ => Finset.insert_nonempty ..)
        (fun ho => ⟨ho, rfl, topics_update ..⟩) h.fresh
  | unsubscribe i =>
    rw [Client.step, unsubscribe]
    split
    next topic handler hi =>
      dsimp only
      cases hget : c.subscriptions.get? topic with
      | none => exact h.silent rfl rfl h.handled (fun ho => ⟨ho, rfl, rfl⟩) h.fresh
      | some current =>
        dsimp only
        split_ifs with hempty
        · refine h.tell rfl rfl rfl rfl rfl ?_ fun s hs => h.handled s (mem_of_mem_filter hs)
          rw [topics_erase, hear]
        · refine h.silent rfl rfl (handled_update h.handled fun s hs htopic => ?_)
            (fun ho => ⟨ho, rfl, topics_update ..⟩) h.fresh
          obtain rfl := Option.some.inj (hget.symm.trans (get?_eq_some.2 ⟨hs, htopic⟩))
          exact Finset.nonempty_iff_ne_empty.2 hempty
    · exact h.idle rfl
  | publishRaw x =>
    rw [Client.step]
    split_ifs with ho
    · obtain ⟨hsynced, hempty⟩ := h.opened ho
      refine ⟨h.handled, fun _ => ⟨?_, hempty⟩, fun hc => absurd (ho.symm.trans hc) (by simp), ?_⟩
      · show subscribed (c.sent ++ [.publish x]) = _
        rw [subscribed, foldlM_append, ← subscribed, hsynced]
        rfl
      · simp [send, ← h.ordered, hempty, sample?, Event.sample?]
    · refine ⟨h.handled, fun hc => absurd hc ho, h.fresh, ?_⟩
      simp [← h.ordered, Event.sample?]
  | close =>
    rw [Client.step]
    exact h.silent rfl rfl h.handled (by simp) (by simp)

/-! ## The handlers of the calls -/

def handlersOf (c : Client) (topic : Str) : Finset Nat :=
  ((c.subscriptions.get? topic).map Subscription.handlers).getD ∅

structure Holds (c : Client) (s : List Unsubscribe × Finset (Str × Nat)) : Prop where
  returned : c.returned = s.1
  live : ∀ x, x ∈ s.2 ↔ x.2 ∈ c.handlersOf x.1

variable {s : List Unsubscribe × Finset (Str × Nat)} {topic t : Str}

@[simp] theorem sendIfOpen_kept : (c.sendIfOpen f).1.subscriptions = c.subscriptions ∧
    (c.sendIfOpen f).1.returned = c.returned := by
  unfold sendIfOpen
  split_ifs <;> exact ⟨rfl, rfl⟩

theorem handlersOf_update {current : Subscription} {g : Finset Nat → Finset Nat}
    (hget : c.subscriptions.get? topic = some current) : (c.update topic g).handlersOf t =
      if t = topic then g (c.handlersOf t) else c.handlersOf t := by
  unfold handlersOf update
  rw [get?_modify]
  cases hother : c.subscriptions.get? t with
  | none =>
    have hne : t ≠ topic := fun ht => by simp [← ht, hother] at hget
    rw [if_neg hne]
    rfl
  | some other =>
    rw [Option.map_some, (get?_eq_some.1 hother).2]
    split_ifs <;> rfl

theorem handlersOf_subscribeRaw (handler : Nat) : (c.subscribeRaw topic handler).1.handlersOf t =
      if t = topic then insert handler (c.handlersOf t) else c.handlersOf t := by
  unfold subscribeRaw
  dsimp only
  cases hget : c.subscriptions.get? topic with
  | none =>
    rw [handlersOf, handlersOf, sendIfOpen_kept.1, get?_insert]
    split_ifs with ht
    · simp [ht, hget]
    · rfl
  | some current => exact handlersOf_update hget

theorem handlersOf_unsubscribe {i handler : Nat}
    (hi : c.returned[i]? = some ⟨topic, handler, false⟩) : (c.unsubscribe i).1.handlersOf t =
      if t = topic then (c.handlersOf t).erase handler else c.handlersOf t := by
  unfold unsubscribe
  simp only [hi]
  cases hget : c.subscriptions.get? topic with
  | none =>
    rw [handlersOf, handlersOf]
    split_ifs with ht
    · simp [ht, hget]
    · rfl
  | some current =>
    dsimp only
    split_ifs with hempty ht ht
    · rw [handlersOf, handlersOf, sendIfOpen_kept.1, get?_erase, if_pos ht, ht, hget]
      exact hempty.symm
    · rw [handlersOf, handlersOf, sendIfOpen_kept.1, get?_erase, if_neg ht]
    · exact (handlersOf_update (g := (·.erase handler)) hget).trans (if_pos ht)
    · exact (handlersOf_update (g := (·.erase handler)) hget).trans (if_neg ht)

theorem Holds.subscribeRaw (h : Holds c s) (handler : Nat) :
    Holds (c.subscribeRaw topic handler).1 (register s (.subscribeRaw topic handler)) := by
  refine ⟨?_, fun x => ?_⟩
  · rw [register, ← h.returned, Client.subscribeRaw]
    dsimp only
    cases c.subscriptions.get? topic <;> simp [update]
  · rw [register, Finset.mem_insert, h.live, handlersOf_subscribeRaw]
    grind

theorem Holds.unsubscribe (h : Holds c s) (i : Nat) :
    Holds (c.unsubscribe i).1 (register s (.unsubscribe i)) := by
  unfold register
  simp only [← h.returned]
  rcases hi : c.returned[i]? with _ | ⟨topic, handler, _ | _⟩
  · simpa [Client.unsubscribe, hi] using h
  · refine ⟨?_, fun x => ?_⟩
    · simp only [Client.unsubscribe, hi]
      cases c.subscriptions.get? topic with
      | none => rfl
      | some current =>
        dsimp only
        split_ifs <;> simp [update]
    · rw [Finset.mem_erase, h.live, handlersOf_unsubscribe hi]
      grind
  · simpa [Client.unsubscribe, hi] using h

theorem Holds.step (h : Holds c s) (e : Event) : Holds (c.step e).1 (register s e) := by
  cases e with
  | subscribeRaw topic handler => exact h.subscribeRaw handler
  | unsubscribe i => exact h.unsubscribe i
  | _ =>
    rw [Client.step]
    first | split_ifs <;> exact ⟨h.returned, h.live⟩ | exact ⟨h.returned, h.live⟩

theorem topics_eq (h : Holds c s)
    (hhandled : ∀ sub ∈ c.subscriptions.items, sub.handlers.Nonempty) :
    topics c.subscriptions = s.2.image Prod.fst := by
  ext t
  simp only [topics, mem_toFinset, mem_map, Finset.mem_image, h.live]
  constructor
  · rintro ⟨sub, hsub, rfl⟩
    obtain ⟨handler, hmem⟩ := hhandled sub hsub
    refine ⟨(sub.topic, handler), ?_, rfl⟩
    simpa [handlersOf, get?_eq_some.2 ⟨hsub, rfl⟩] using hmem
  · rintro ⟨x, hx, rfl⟩
    unfold handlersOf at hx
    cases hget : c.subscriptions.get? x.1 with
    | none => simp [hget] at hx
    | some sub => exact ⟨sub, get?_eq_some.1 hget⟩

/-- In every run, as long as a socket is open, the frames sent on it subscribe to the topics for
which the calls leave a handler, each once. The samples sent, and those queued after them, are those
of the calls, in their order. -/
theorem subscriptions_synced (reconnect : Bool) (events : List Event) :
    let r := Run.run step (new reconnect) events
    (r.1.ws = some .opened → subscribed r.1.sent = some (topics r.1.subscriptions)) ∧
      topics r.1.subscriptions = (registered events).image Prod.fst ∧
      r.2.filterMap sample? ++ r.1.outbox = events.filterMap Event.sample? := by
  have h : Inv (Run.run step (new reconnect) events).1 events _ :=
    Run.run_induction_always (fun c e _ _ h => h.step e) ⟨nofun, nofun, fun _ => rfl, rfl⟩ events
  have hholds : Holds (Run.run step (new reconnect) events).1 (events.foldl register ([], ∅)) := by
    refine Run.run_induction_always
      (J := fun (c : Client) events (_ : List Frame) => Holds c (events.foldl register ([], ∅)))
      (fun c e past _ h => ?_) ⟨rfl, fun x => ?_⟩ events
    · rw [foldl_concat]
      exact h.step e
    · simp [handlersOf, new, Registry.empty, get?]
  exact ⟨fun ho => (h.opened ho).1, topics_eq hholds h.handled, h.ordered⟩

-- two connections: the second is told what is left, and what was published in between
example : (Run.run step (new true) [.subscribeRaw [1] 0, .opened, .subscribeRaw [2] 0,
    .unsubscribe 0, .failed, .publishRaw ([2], [7]), .closed, .timeout, .opened]).2 =
    [.subscribe [1], .subscribe [2], .unsubscribe [1], .publish ([2], [7]), .subscribe [2]] := by
  decide

theorem step_closed {c : Client} (h : c.closedByCaller ∧ c.ws = none) (e : Event) :
    ((c.step e).1.closedByCaller ∧ (c.step e).1.ws = none) ∧ (c.step e).2 = [] := by
  cases e <;> grind [Client.step, subscribeRaw, unsubscribe, sendIfOpen, update, send]

/-- After `close`, whatever is called or was under way, nothing is sent and no socket is opened. -/
theorem silent_after_close (reconnect : Bool) (before after : List Event) :
    let c := (Run.run step (new reconnect) (before ++ [.close])).1
    (Run.run step c after).1.ws = none ∧ (Run.run step c after).2 = [] := by
  intro c
  have hc : c.closedByCaller ∧ c.ws = none := by
    simp [c, Run.run_append, Run.run_singleton, step]
  obtain ⟨⟨-, hws⟩, hframes⟩ := Run.run_induction_always
    (J := fun (c : Client) _ frames => (c.closedByCaller ∧ c.ws = none) ∧ frames = [])
    (fun c e _ _ h => ⟨(step_closed h.1 e).1, by rw [h.2, (step_closed h.1 e).2]; rfl⟩) ⟨hc, rfl⟩ after
  exact ⟨hws, hframes⟩

end Client

end GoDDS.JsClient
