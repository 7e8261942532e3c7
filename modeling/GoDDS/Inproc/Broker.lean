import GoDDS.Lib.Run
import GoDDS.Lib.Slice
import GoDDS.Mock.Broker

/-!
# In-process brokers under concurrency

The brokers of `mock.go` and `shmem.go` with any number of goroutines. What the time-based filter
and the arbitration say is a parameter.
-/

namespace GoDDS.Inproc

open ByteCodec Go Mock List Function Option Slice Nat
open Table (set_ne set_self)

inductive Backend where
  | mock
  | shmem
  deriving DecidableEq

instance : Inhabited SubscriptionConfig :=
  ⟨{ id := 0, topic := [], filter := none, contentFilter := none, backPressure := .dropNewest,
     partitions := [], minSeparation := 0, depth := 1, depth_pos := Nat.one_pos }⟩

structure Subscriber where
  topic : Str
  unsubscribed : Bool
  closed : Bool
  queue : List Sample

/-- A publish after its locked part: its list, how far it is, and the subscription it is about to
serve. -/
structure Flight where
  sample : Sample
  partitions : List Str
  subs : Slice
  next : Nat
  current : Option SubscriptionConfig

/-- A broker, channels and publishes, both numbered. A send on a closed channel sets `crashed`. -/
structure State where
  heap : Heap SubscriptionConfig
  subs : Str → Slice
  subscribers : Table Nat Subscriber
  flights : Table Nat Flight
  created : Nat
  published : Nat
  crashed : Bool

/-- What happens under one lock, or one turn of the loop that hands a sample out. -/
inductive Step where
  | subscribe (topic : Str) (qos : QoS) (cfg : SubscriberConfig) (cf : Option (Bytes → Bool))
  | unsubscribe (ch : Nat)
  | close (ch : Nat)
  | tryRead (ch : Nat)
  | publish (sample : Sample) (partitions : List Str) (order : List Str) (allowed : Bool)
  | fetch (k : Nat)
  | deliver (k : Nat) (separated : Bool)

inductive Output where
  | offered (k ch : Nat)
  | panicked (k ch : Nat)
  deriving DecidableEq

namespace State

def new : State :=
  { heap := Heap.empty, subs := fun _ => Slice.nil, subscribers := Table.empty,
    flights := Table.empty, created := 0, published := 0, crashed := false }

def list (s : State) (topic : Str) : List SubscriptionConfig := (s.subs topic).elems s.heap

def setSubscriber (s : State) (ch : Nat) (m : Subscriber) : State :=
  { s with subscribers := s.subscribers.set ch m }

def setFlight (s : State) (k : Nat) (f : Flight) : State := { s with flights := s.flights.set k f }

def subscribe (g : Growth) (s : State) (topic : Str) (qos : QoS) (cfg : SubscriberConfig)
    (cf : Option (Bytes → Bool)) : State :=
  let sub := Mock.Broker.subscriptionConfig s.created topic qos cfg cf
  let added := (s.subs topic).append g s.heap [sub]
  { s with
    heap := added.1
    subs := Function.update s.subs topic added.2
    subscribers := s.subscribers.set s.created ⟨topic, false, false, []⟩
    created := s.created + 1 }

def removeSubscription (g : Growth) (s : State) (topic : Str) (ch : Nat) : State :=
  match (s.list topic).findIdx? fun x => x.id = ch with
  | none => s
  | some i =>
    let removed := (s.subs topic).removeAt g s.heap i
    { s with heap := removed.1, subs := Function.update s.subs topic removed.2 }

def unsubscribe (g : Growth) (s : State) (ch : Nat) : State :=
  match s.subscribers ch with
  | none => s
  | some m =>
    if m.unsubscribed then s
    else (s.removeSubscription g m.topic ch).setSubscriber ch { m with unsubscribed := true }

def close (s : State) (ch : Nat) : State :=
  match s.subscribers ch with
  | none => s
  | some m =>
    if !m.unsubscribed || m.closed then s else s.setSubscriber ch { m with closed := true }

def tryRead (s : State) (ch : Nat) : State :=
  match s.subscribers ch with
  | none => s
  | some m => s.setSubscriber ch { m with queue := m.queue.tail }

/-! ## Publishing -/

/-- Append the lists of the matching patterns, in the order the topics are visited in. -/
def collect (g : Growth) (s : State) (topic : Str) (own : Heap SubscriptionConfig × Slice)
    (order : List Str) : Heap SubscriptionConfig × Slice :=
  order.foldl
    (fun acc t =>
      if t ≠ topic ∧ topicMatches t topic = true then
        acc.2.append g acc.1 ((s.subs t).elems acc.1)
      else acc) own

end State

/-- The list a publish starts with: the registry's own, or a copy of it. -/
def Backend.own (b : Backend) (s : State) (topic : Str) : Heap SubscriptionConfig × Slice :=
  match b with
  | .mock => (s.heap, s.subs topic)
  | .shmem => (s.subs topic).clone s.heap

/-- The mock registry's own slice, which later steps may write to; the shmem broker takes a copy. -/
def Backend.snapshot (b : Backend) (g : Growth) (s : State) (topic : Str) (order : List Str) :
    Heap SubscriptionConfig × Slice :=
  s.collect g topic (b.own s topic) order

/-- The partitions match; only the mock broker looks at them. -/
def Backend.inPartition (b : Backend) (f : Flight) (x : SubscriptionConfig) : Bool :=
  match b with
  | .mock => partitionsMatch f.partitions x.partitions
  | .shmem => true

/-- The subscription is to get the sample, as far as partitions and filters go. -/
def Backend.wants (b : Backend) (f : Flight) (x : SubscriptionConfig) : Bool :=
  b.inPartition f x && Subscription.passesFilters x f.sample

def Backend.tooSoon (b : Backend) (x : SubscriptionConfig) (separated : Bool) : Bool :=
  match b with
  | .mock => 0 < x.minSeparation && !separated
  | .shmem => false

/-- Send on an open channel under the back-pressure policy; `none` while a blocking send waits for
room. -/
def Subscriber.send (m : Subscriber) (x : SubscriptionConfig) (sample : Sample) : Option Subscriber :=
  if m.queue.length < x.depth then some { m with queue := m.queue ++ [sample] }
  else
    match x.backPressure with
    | .dropOldest => some { m with queue := m.queue.tail ++ [sample] }
    | .block => none
    | .dropNewest => some m

namespace State

/-- The list of the subscriptions is taken under the lock and walked after the lock is released. -/
def publish (b : Backend) (g : Growth) (s : State) (sample : Sample) (partitions : List Str)
    (order : List Str) (allowed : Bool) : State :=
  let snap := b.snapshot g s sample.topic order
  { s with
    heap := snap.1
    published := s.published + 1
    flights :=
      if b = .shmem ∨ allowed then s.flights.set s.published ⟨sample, partitions, snap.2, 0, none⟩
      else s.flights }

def fetch (s : State) (k : Nat) : State :=
  match s.flights k with
  | none => s
  | some f =>
    if f.current.isSome then s
    else if f.next < f.subs.len then
      s.setFlight k
        { f with current := some (s.heap.slot f.subs.array f.next), next := f.next + 1 }
    else { s with flights := s.flights.erase k }

def deliver (b : Backend) (s : State) (k : Nat) (separated : Bool) : State × List Output :=
  match s.flights k with
  | none => (s, [])
  | some f =>
    match f.current with
    | none => (s, [])
    | some x =>
      let done := s.setFlight k { f with current := none }
      if !b.inPartition f x then (done, [])
      else if !b.wants f x || b.tooSoon x separated then (done, [.offered k x.id])
      else
        match s.subscribers x.id with
        | none => (s, [])
        | some m =>
          if m.closed then ({ s with crashed := true }, [.offered k x.id, .panicked k x.id])
          else
            match m.send x f.sample with
            | none => (s, [])
            | some m' => (done.setSubscriber x.id m', [.offered k x.id])

def step (b : Backend) (g : Growth) (s : State) (e : Step) : State × List Output :=
  if s.crashed then (s, [])
  else
    match e with
    | .subscribe topic qos cfg cf => (s.subscribe g topic qos cfg cf, [])
    | .unsubscribe ch => (s.unsubscribe g ch, [])
    | .close ch => (s.close ch, [])
    | .tryRead ch => (s.tryRead ch, [])
    | .publish sample partitions order allowed => (s.publish b g sample partitions order allowed, [])
    | .fetch k => (s.fetch k, [])
    | .deliver k separated => s.deliver b k separated

inductive Change (b : Backend) (g : Growth) (s : State) : Step → State → List Output → Prop
  | none {e : Step} : Change b g s e s []
  | subscribed (topic : Str) (qos : QoS) (cfg : SubscriberConfig) (cf : Option (Bytes → Bool)) :
      Change b g s (.subscribe topic qos cfg cf) (s.subscribe g topic qos cfg cf) []
  | unsubscribed {ch : Nat} {m : Subscriber} (hm : s.subscribers ch = some m) :
      Change b g s (.unsubscribe ch)
        ((s.removeSubscription g m.topic ch).setSubscriber ch { m with unsubscribed := true }) []
  | closed {ch : Nat} {m : Subscriber} (hm : s.subscribers ch = some m)
      (hun : m.unsubscribed = true) :
      Change b g s (.close ch) (s.setSubscriber ch { m with closed := true }) []
  | read {ch : Nat} {m : Subscriber} (hm : s.subscribers ch = some m) :
      Change b g s (.tryRead ch) (s.setSubscriber ch { m with queue := m.queue.tail }) []
  | published (sample : Sample) (partitions order : List Str) (allowed : Bool) :
      Change b g s (.publish sample partitions order allowed)
        (s.publish b g sample partitions order allowed) []
  | fetched {k : Nat} {f : Flight} (hf : s.flights k = some f) (hcurrent : f.current = .none)
      (hlt : f.next < f.subs.len) :
      Change b g s (.fetch k) (s.setFlight k
        { f with current := some (s.heap.slot f.subs.array f.next), next := f.next + 1 }) []
  | ended {k : Nat} {f : Flight} (hf : s.flights k = some f) (hcurrent : f.current = .none)
      (hge : f.subs.len ≤ f.next) :
      Change b g s (.fetch k) { s with flights := s.flights.erase k } []
  | skipped {k : Nat} {separated : Bool} {f : Flight} {x : SubscriptionConfig}
      (hf : s.flights k = some f) (hcurrent : f.current = some x) (hout : b.inPartition f x = false) :
      Change b g s (.deliver k separated) (s.setFlight k { f with current := .none }) []
  | offered {k : Nat} {separated : Bool} {f : Flight} {x : SubscriptionConfig}
      (hf : s.flights k = some f) (hcurrent : f.current = some x) (hin : b.inPartition f x = true) :
      Change b g s (.deliver k separated) (s.setFlight k { f with current := .none })
        [.offered k x.id]
  | sent {k : Nat} {separated : Bool} {f : Flight} {x : SubscriptionConfig} {m m' : Subscriber}
      (hf : s.flights k = some f) (hcurrent : f.current = some x) (hwants : b.wants f x = true)
      (hm : s.subscribers x.id = some m) (hopen : m.closed = false)
      (hsend : m.send x f.sample = some m') :
      Change b g s (.deliver k separated)
        ((s.setFlight k { f with current := .none }).setSubscriber x.id m') [.offered k x.id]
  | panicked {k : Nat} {separated : Bool} {f : Flight} {x : SubscriptionConfig} {m : Subscriber}
      (hf : s.flights k = some f) (hcurrent : f.current = some x) (hwants : b.wants f x = true)
      (hm : s.subscribers x.id = some m) (hclosed : m.closed = true) :
      Change b g s (.deliver k separated) { s with crashed := true }
        [.offered k x.id, .panicked k x.id]

variable {b : Backend} {g : Growth} {s : State}

theorem deliver_change (k : Nat) (separated : Bool) :
    Change b g s (.deliver k separated) (s.deliver b k separated).1 (s.deliver b k separated).2 := by
  unfold deliver
  cases hf : s.flights k with
  | none => exact .none
  | some f =>
    cases hcurrent : f.current with
    | none =>
      simp only [hcurrent]
      exact .none
    | some x =>
      simp only [hcurrent]
      split_ifs with hout hskip
      · exact .skipped hf hcurrent (by simpa using hout)
      · exact .offered hf hcurrent (by simpa using hout)
      · have hwants : b.wants f x := by
          rw [Bool.or_eq_true, not_or] at hskip
          simpa using hskip.1
        cases hm : s.subscribers x.id with
        | none => exact .none
        | some m =>
          dsimp only
          split_ifs with hclosed
          · exact .panicked hf hcurrent hwants hm hclosed
          · cases hsend : m.send x f.sample with
            | none => exact .none
            | some m' => exact .sent hf hcurrent hwants hm (by simpa using hclosed) hsend

theorem step_change (b : Backend) (g : Growth) (s : State) (e : Step) :
    Change b g s e (s.step b g e).1 (s.step b g e).2 := by
  unfold step
  split_ifs
  · exact .none
  cases e with
  | subscribe topic qos cfg cf => exact .subscribed topic qos cfg cf
  | unsubscribe ch =>
    dsimp only
    unfold unsubscribe
    cases hm : s.subscribers ch with
    | none => exact .none
    | some m =>
      dsimp only
      split_ifs
      · exact .none
      · exact .unsubscribed hm
  | close ch =>
    dsimp only
    unfold close
    cases hm : s.subscribers ch with
    | none => exact .none
    | some m =>
      dsimp only
      split_ifs with hc
      · exact .none
      · rw [Bool.or_eq_true, not_or] at hc
        exact .closed hm (by simpa using hc.1)
  | tryRead ch =>
    dsimp only
    unfold tryRead
    cases hm : s.subscribers ch with
    | none => exact .none
    | some m => exact .read hm
  | publish sample partitions order allowed => exact .published sample partitions order allowed
  | fetch k =>
    dsimp only
    unfold fetch
    cases hf : s.flights k with
    | none => exact .none
    | some f =>
      dsimp only
      split_ifs with hbusy hlt
      · exact .none
      · exact .fetched hf (by simpa using hbusy) hlt
      · exact .ended hf (by simpa using hbusy) (by omega)
  | deliver k separated => exact deliver_change k separated

theorem send_same {m m' : Subscriber} {x : SubscriptionConfig} {sample : Sample}
    (h : m.send x sample = some m') :
    m'.topic = m.topic ∧ m'.unsubscribed = m.unsubscribed ∧ m'.closed = m.closed := by
  unfold Subscriber.send at h
  split_ifs at h
  · rw [← some.inj h]
    exact ⟨rfl, rfl, rfl⟩
  · split at h
    · rw [← some.inj h]
      exact ⟨rfl, rfl, rfl⟩
    · cases h
    · rw [← some.inj h]
      exact ⟨rfl, rfl, rfl⟩

/-! ## The registry as a map of lists -/

theorem list_subscribe (hl : Laid s.heap s.subs) (topic : Str) (qos : QoS) (cfg : SubscriberConfig)
    (cf : Option (Bytes → Bool)) (t : Str) : (s.subscribe g topic qos cfg cf).list t =
      if t = topic then s.list topic ++ [Mock.Broker.subscriptionConfig s.created topic qos cfg cf]
      else s.list t := by
  unfold list subscribe
  dsimp only
  split_ifs with ht
  · rw [ht, update_self]
    exact elems_append g s.heap _ _
  · rw [update_of_ne ht]
    exact hl.elems_put rfl rfl ht g _

theorem list_removeSubscription (hl : Laid s.heap s.subs) (topic : Str) (ch : Nat) (t : Str) :
    (s.removeSubscription g topic ch).list t =
      if t = topic then (s.list topic).eraseP fun x => x.id = ch else s.list t := by
  unfold removeSubscription
  rw [eraseP_eq_eraseIdx]
  cases hidx : (s.list topic).findIdx? fun x => x.id = ch with
  | none =>
    split_ifs with ht
    · rw [ht]
    · rfl
  | some i =>
    have hi : i < (s.subs topic).len := by
      rw [← length_elems s.heap]
      exact (findIdx?_eq_some_iff_getElem.1 hidx).1
    unfold list
    dsimp only
    split_ifs with ht
    · rw [ht, update_self]
      exact elems_removeAt g s.heap hi
    · rw [update_of_ne ht]
      exact hl.elems_put (s := { s.subs topic with len := i }) rfl rfl ht g _

def patternLists (s : State) (topic : Str) (order : List Str) : List SubscriptionConfig :=
  order.flatMap fun t => if t ≠ topic ∧ topicMatches t topic = true then s.list t else []

structure Collected (s : State) (snap : Heap SubscriptionConfig × Slice)
    (xs : List SubscriptionConfig) : Prop where
  laid : Laid snap.1 s.subs
  beyond : Beyond s.subs snap.2
  allocated : snap.2.Allocated snap.1
  bound : snap.2.len ≤ snap.2.cap
  next : s.heap.next ≤ snap.1.next
  lists : ∀ t, (s.subs t).elems snap.1 = s.list t
  elems : snap.2.elems snap.1 = xs
  slots : ∀ a < s.heap.next, ∀ i, snap.1.slot a i = s.heap.slot a i ∨ ∃ t, snap.1.slot a i ∈ s.list t

theorem Collected.append {snap : Heap SubscriptionConfig × Slice} {xs : List SubscriptionConfig}
    (h : Collected s snap xs) (g : Growth) (t : Str) :
    Collected s (snap.2.append g snap.1 ((s.subs t).elems snap.1)) (xs ++ s.list t) := by
  rw [h.lists t]
  constructor
  · exact h.laid.append g _ _
  · exact h.beyond.append h.laid g _
  · exact h.allocated.append g _
  · exact len_le_cap_append g _ _ _
  · exact le_trans h.next (next_le_append g _ _ _)
  · intro t'
    exact (h.laid.elems_append h.beyond g _ t').trans (h.lists t')
  · rw [elems_append, h.elems]
  · intro a ha i
    rcases slot_append_cases g snap.2 (s.list t) (lt_of_lt_of_le ha h.next) i with hsame | hnew
    · rw [hsame]
      exact h.slots a ha i
    · exact .inr ⟨t, hnew⟩

theorem collected_own (hl : Laid s.heap s.subs) (topic : Str) :
    Collected s (b.own s topic) (s.list topic) := by
  cases b with
  | mock =>
    exact ⟨hl, hl.beyond_self topic, hl.allocated topic, hl.bound topic, le_refl _,
      fun _ => rfl, rfl, fun _ _ _ => .inl rfl⟩
  | shmem =>
    refine ⟨hl.append .exact _ _, beyond_nil.append hl .exact _,
      allocated_nil.append .exact _, len_le_cap_append .exact _ _ _, next_le_append .exact _ _ _,
      hl.elems_append beyond_nil .exact _, elems_clone _ _, fun a ha i => ?_⟩
    exact (slot_append_cases .exact nil _ ha i).imp_right fun hnew => ⟨topic, hnew⟩

theorem collected_snapshot (hl : Laid s.heap s.subs) (g : Growth) (topic : Str) (order : List Str) :
    Collected s (b.snapshot g s topic order) (s.list topic ++ s.patternLists topic order) := by
  have hstep : ∀ snap xs, Collected s snap xs →
      Collected s (s.collect g topic snap order) (xs ++ s.patternLists topic order) := by
    induction order with
    | nil =>
      intro snap xs h
      rw [show s.patternLists topic [] = [] from rfl, append_nil]
      exact h
    | cons t order ih =>
      intro snap xs h
      have hcons : s.patternLists topic (t :: order) =
          (if t ≠ topic ∧ topicMatches t topic = true then s.list t else []) ++
            s.patternLists topic order := flatMap_cons
      rw [hcons, ← append_assoc]
      unfold collect
      rw [foldl_cons]
      split_ifs
      · exact ih _ _ (h.append g t)
      · rw [append_nil]
        exact ih _ _ h
  exact hstep _ _ (collected_own hl topic)

/-! ## The invariant of the registry -/

/-- The slices are laid out apart; every listed subscription is listed once, for its topic, and has
not unsubscribed; only unsubscribed channels are closed. -/
structure Sound (s : State) : Prop where
  laid : Laid s.heap s.subs
  listed : ∀ t, ∀ x ∈ s.list t, ∃ m, s.subscribers x.id = some m ∧ m.topic = t ∧
    m.unsubscribed = false
  once : ∀ t, ((s.list t).map fun x => x.id).Nodup
  numbered : ∀ ch m, s.subscribers ch = some m → ch < s.created
  closing : ∀ ch m, s.subscribers ch = some m → m.closed = true → m.unsubscribed = true
  flights : ∀ k f, s.flights k = some f → k < s.published ∧ f.subs.Allocated s.heap ∧
    f.subs.len ≤ f.subs.cap

theorem sound_new : Sound new := by
  refine ⟨⟨fun _ => le_refl _, fun _ hc => absurd rfl hc, fun _ _ _ hc => absurd rfl hc⟩,
    fun t x hx => ?_, fun _ => nodup_nil, ?_, ?_, ?_⟩
  · cases hx
  all_goals
    intro _ _ h
    cases h

theorem sound_subscribe (h : s.Sound) (g : Growth) (topic : Str) (qos : QoS)
    (cfg : SubscriberConfig) (cf : Option (Bytes → Bool)) :
    (s.subscribe g topic qos cfg cf).Sound := by
  have hnew : ∀ t, ∀ x ∈ s.list t, x.id ≠ s.created := by
    intro t x hx
    obtain ⟨m, hm, -⟩ := h.listed t x hx
    exact Nat.ne_of_lt (h.numbered _ _ hm)
  constructor
  · exact h.laid.put rfl rfl g _
  · intro t x hx
    rw [list_subscribe h.laid] at hx
    have hold : ∀ t, x ∈ s.list t → ∃ m,
        s.subscribers.set s.created ⟨topic, false, false, []⟩ x.id = some m ∧ m.topic = t ∧
          m.unsubscribed = false := by
      intro t hx
      rw [set_ne _ _ (hnew t x hx)]
      exact h.listed t x hx
    split_ifs at hx with ht
    · rcases mem_append.1 hx with hx | hx
      · exact ht ▸ hold topic hx
      · rw [mem_singleton.1 hx]
        exact ⟨_, set_self _ _ _, ht.symm, rfl⟩
    · exact hold t hx
  · intro t
    rw [list_subscribe h.laid]
    split_ifs
    · rw [map_append, nodup_append]
      refine ⟨h.once topic, nodup_singleton _, ?_⟩
      intro a ha a' ha'
      obtain ⟨x, hx, rfl⟩ := List.mem_map.1 ha
      rw [mem_singleton.1 ha']
      exact hnew topic x hx
    · exact h.once t
  · intro ch m hm
    rcases eq_or_ne ch s.created with rfl | hne
    · exact lt_succ_self _
    · change s.subscribers.set s.created _ ch = some m at hm
      rw [set_ne _ _ hne] at hm
      exact lt_succ_of_lt (h.numbered ch m hm)
  · intro ch m hm hclosed
    change s.subscribers.set s.created _ ch = some m at hm
    rcases eq_or_ne ch s.created with rfl | hne
    · rw [set_self] at hm
      rw [← some.inj hm] at hclosed
      cases hclosed
    · rw [set_ne _ _ hne] at hm
      exact h.closing ch m hm hclosed
  · intro k f hf
    obtain ⟨hk, ha, hbound⟩ := h.flights k f hf
    exact ⟨hk, ha.mono (next_le_append g _ _ _), hbound⟩

theorem mem_eraseP_iff {l : List SubscriptionConfig} (h : (l.map fun x => x.id).Nodup) {ch : Nat}
    {x : SubscriptionConfig} : x ∈ l.eraseP (fun x => x.id = ch) ↔ x ∈ l ∧ x.id ≠ ch := by
  induction l with
  | nil => simp
  | cons y l ih =>
    rw [map_cons, nodup_cons] at h
    by_cases hy : y.id = ch
    · rw [eraseP_cons_of_pos (by simpa using hy), mem_cons]
      constructor
      · intro hx
        exact ⟨.inr hx, fun hid => h.1 (List.mem_map.2 ⟨x, hx, hid.trans hy.symm⟩)⟩
      · rintro ⟨rfl | hx, hne⟩
        · exact absurd hy hne
        · exact hx
    · rw [eraseP_cons_of_neg (by simpa using hy), mem_cons, mem_cons, ih h.2]
      constructor
      · rintro (rfl | ⟨hx, hne⟩)
        · exact ⟨.inl rfl, hy⟩
        · exact ⟨.inr hx, hne⟩
      · rintro ⟨rfl | hx, hne⟩
        · exact .inl rfl
        · exact .inr ⟨hx, hne⟩

theorem removeSubscription_heap (hl : Laid s.heap s.subs) (g : Growth) (topic : Str) (ch : Nat) :
    Laid (s.removeSubscription g topic ch).heap (s.removeSubscription g topic ch).subs ∧
      s.heap.next ≤ (s.removeSubscription g topic ch).heap.next ∧
      (s.removeSubscription g topic ch).subscribers = s.subscribers ∧
      (s.removeSubscription g topic ch).flights = s.flights ∧
      (s.removeSubscription g topic ch).created = s.created ∧
      (s.removeSubscription g topic ch).published = s.published := by
  unfold removeSubscription
  cases (s.list topic).findIdx? fun x => x.id = ch with
  | none => exact ⟨hl, le_refl _, rfl, rfl, rfl, rfl⟩
  | some i =>
    exact ⟨hl.put (s := { s.subs topic with len := i }) rfl rfl g _, next_le_append g _ _ _,
      rfl, rfl, rfl, rfl⟩

theorem sound_unsubscribe (h : s.Sound) (g : Growth) {ch : Nat} {m : Subscriber}
    (hm : s.subscribers ch = some m) :
    ((s.removeSubscription g m.topic ch).setSubscriber ch { m with unsubscribed := true }).Sound := by
  obtain ⟨hlaid, hnext, hsubscribers, hflights, hcreated, hpublished⟩ :=
    s.removeSubscription_heap h.laid g m.topic ch
  have hset : ∀ ch' m', (s.removeSubscription g m.topic ch).subscribers.set ch
      { m with unsubscribed := true } ch' = some m' → (ch' = ch ∧ m'.unsubscribed) ∨
        s.subscribers ch' = some m' := by
    intro ch' m' hm'
    rw [hsubscribers] at hm'
    rcases eq_or_ne ch' ch with rfl | hne
    · rw [set_self] at hm'
      rw [← some.inj hm']
      exact .inl ⟨rfl, rfl⟩
    · rw [set_ne _ _ hne] at hm'
      exact .inr hm'
  constructor
  · exact hlaid
  · intro t x hx
    change x ∈ (s.removeSubscription g m.topic ch).list t at hx
    rw [list_removeSubscription h.laid] at hx
    have hkept : x ∈ s.list t ∧ x.id ≠ ch := by
      split_ifs at hx with ht
      · rw [ht]
        exact (mem_eraseP_iff (h.once _)).1 hx
      · refine ⟨hx, fun hid => ht ?_⟩
        obtain ⟨m', hm', htopic, -⟩ := h.listed t x hx
        rw [hid, hm] at hm'
        rw [← htopic, some.inj hm']
    show ∃ m', (s.removeSubscription g m.topic ch).subscribers.set ch _ x.id = some m' ∧ _
    rw [hsubscribers, set_ne _ _ hkept.2]
    exact h.listed t x hkept.1
  · intro t
    show (((s.removeSubscription g m.topic ch).list t).map fun x => x.id).Nodup
    rw [list_removeSubscription h.laid]
    split_ifs
    · exact ((eraseP_sublist).map _).nodup (h.once m.topic)
    · exact h.once t
  · intro ch' m' hm'
    show ch' < (s.removeSubscription g m.topic ch).created
    rw [hcreated]
    rcases hset ch' m' hm' with ⟨rfl, -⟩ | hold
    · exact h.numbered _ _ hm
    · exact h.numbered _ _ hold
  · intro ch' m' hm' hclosed
    rcases hset ch' m' hm' with ⟨-, hun⟩ | hold
    · exact hun
    · exact h.closing _ _ hold hclosed
  · intro k f hf
    change (s.removeSubscription g m.topic ch).flights k = some f at hf
    rw [hflights] at hf
    obtain ⟨hk, ha, hbound⟩ := h.flights k f hf
    exact ⟨hpublished.symm ▸ hk, ha.mono hnext, hbound⟩

theorem sound_setSubscriber (h : s.Sound) {ch : Nat} {m m' : Subscriber}
    (hm : s.subscribers ch = some m) (htopic : m'.topic = m.topic)
    (hun : m'.unsubscribed = m.unsubscribed) (hclosed : m'.closed → m.unsubscribed) :
    (s.setSubscriber ch m').Sound := by
  refine ⟨h.laid, fun t x hx => ?_, h.once, fun ch' m₁ hm₁ => ?_, fun ch' m₁ hm₁ hc => ?_, h.flights⟩
  · obtain ⟨m₀, hm₀, ht, hopen⟩ := h.listed t x hx
    rcases eq_or_ne x.id ch with heq | hne
    · rw [heq, hm] at hm₀
      obtain rfl := some.inj hm₀
      exact ⟨m', by rw [heq]; exact set_self _ _ _, htopic.trans ht, hun.trans hopen⟩
    · exact ⟨m₀, by rw [← hm₀]; exact set_ne _ _ hne, ht, hopen⟩
  · change s.subscribers.set ch _ ch' = some m₁ at hm₁
    rcases eq_or_ne ch' ch with rfl | hne
    · exact h.numbered _ _ hm
    · rw [set_ne _ _ hne] at hm₁
      exact h.numbered _ _ hm₁
  · change s.subscribers.set ch _ ch' = some m₁ at hm₁
    rcases eq_or_ne ch' ch with rfl | hne
    · rw [set_self] at hm₁
      obtain rfl := some.inj hm₁
      exact hun.trans (hclosed hc)
    · rw [set_ne _ _ hne] at hm₁
      exact h.closing _ _ hm₁ hc

theorem Sound.of_flights (h : s.Sound) {flights : Table Nat Flight}
    (hsame : ∀ k f', flights k = some f' → ∃ f, s.flights k = some f ∧ f'.subs = f.subs) :
    Sound { s with flights := flights } := by
  refine ⟨h.laid, h.listed, h.once, h.numbered, h.closing, fun k f' hf' => ?_⟩
  obtain ⟨f, hf, hsubs⟩ := hsame k f' hf'
  rw [hsubs]
  exact h.flights k f hf

theorem sound_publish (h : s.Sound) (b : Backend) (g : Growth) (sample : Sample)
    (partitions order : List Str) (allowed : Bool) :
    (s.publish b g sample partitions order allowed).Sound := by
  have hsnap := collected_snapshot (b := b) h.laid g sample.topic order
  have hlist : ∀ t, (s.publish b g sample partitions order allowed).list t = s.list t := hsnap.lists
  refine ⟨hsnap.laid, fun t x hx => ?_, fun t => ?_, h.numbered, h.closing, fun k f hf => ?_⟩
  · rw [hlist] at hx
    exact h.listed t x hx
  · rw [hlist]
    exact h.once t
  · have hold : ∀ f, s.flights k = some f → k < s.published + 1 ∧
        f.subs.Allocated (b.snapshot g s sample.topic order).1 ∧ f.subs.len ≤ f.subs.cap := by
      intro f hf
      obtain ⟨hk, ha, hbound⟩ := h.flights k f hf
      exact ⟨lt_succ_of_lt hk, ha.mono hsnap.next, hbound⟩
    change (if b = .shmem ∨ allowed then _ else s.flights) k = some f at hf
    split_ifs at hf
    · rcases eq_or_ne k s.published with rfl | hne
      · rw [set_self] at hf
        rw [← some.inj hf]
        exact ⟨lt_succ_self _, hsnap.allocated, hsnap.bound⟩
      · rw [set_ne _ _ hne] at hf
        exact hold f hf
    · exact hold f hf

theorem Sound.setFlight (h : s.Sound) {k : Nat} {f f' : Flight} (hf : s.flights k = some f)
    (hsubs : f'.subs = f.subs) : (s.setFlight k f').Sound := by
  refine h.of_flights fun j f₁ hf₁ => ?_
  rcases eq_or_ne j k with rfl | hne
  · rw [set_self] at hf₁
    rw [← some.inj hf₁]
    exact ⟨f, hf, hsubs⟩
  · rw [set_ne _ _ hne] at hf₁
    exact ⟨f₁, hf₁, rfl⟩

theorem sound_step (h : s.Sound) (b : Backend) (g : Growth) (e : Step) : (s.step b g e).1.Sound := by
  have hchange := step_change b g s e
  generalize (s.step b g e).1 = s', (s.step b g e).2 = os at hchange
  cases hchange with
  | none => exact h
  | subscribed topic qos cfg cf => exact sound_subscribe h g topic qos cfg cf
  | unsubscribed hm => exact sound_unsubscribe h g hm
  | closed hm hun => exact sound_setSubscriber h hm rfl rfl fun _ => hun
  | @read ch m hm => exact sound_setSubscriber h hm rfl rfl (h.closing ch m hm)
  | published sample partitions order allowed =>
    exact sound_publish h b g sample partitions order allowed
  | fetched hf => exact h.setFlight hf rfl
  | @ended k f hf =>
    refine h.of_flights fun j f' hf' => ⟨f', ?_, rfl⟩
    rcases eq_or_ne j k with rfl | hne
    · rw [Table.erase_self] at hf'
      cases hf'
    · rw [Table.erase_ne _ hne] at hf'
      exact hf'
  | skipped hf => exact h.setFlight hf rfl
  | offered hf => exact h.setFlight hf rfl
  | @sent k _ f x m m' hf _ _ hm hopen hsend =>
    obtain ⟨htopic, hun, hclosed⟩ := send_same hsend
    have hmoved : (s.setFlight k { f with current := none }).Sound := h.setFlight hf rfl
    refine sound_setSubscriber hmoved hm htopic hun fun hc => ?_
    rw [hclosed, hopen] at hc
    cases hc
  | panicked => exact ⟨h.laid, h.listed, h.once, h.numbered, h.closing, h.flights⟩

theorem sound_run (b : Backend) (g : Growth) (es : List Step) : (Run.run (step b g) new es).1.Sound :=
  Run.run_invariant (I := Sound) (fun _ e h => sound_step h b g e) sound_new es

/-- Every subscriber that has not unsubscribed is listed for its topic. -/
def Complete (s : State) : Prop :=
  ∀ ch m, s.subscribers ch = some m → m.unsubscribed = false → ∃ x ∈ s.list m.topic, x.id = ch

theorem complete_step (h : s.Sound) (hc : s.Complete) (e : Step) : (s.step b g e).1.Complete := by
  have hchange := step_change b g s e
  generalize (s.step b g e).1 = s', (s.step b g e).2 = os at hchange
  cases hchange with
  | subscribed topic qos cfg cf =>
    have hlist := list_subscribe (g := g) h.laid topic qos cfg cf
    refine Table.forall_set (by simp [hlist, Broker.subscriptionConfig]) fun ch m hm hopen => ?_
    obtain ⟨x, hx, hid⟩ := hc ch m hm hopen
    grind
  | @unsubscribed ch m hm =>
    have hlist := list_removeSubscription (g := g) h.laid m.topic ch
    obtain ⟨-, -, hsubscribers, -⟩ := s.removeSubscription_heap h.laid g m.topic ch
    intro ch' m' hm' hopen
    obtain ⟨hne, hold⟩ : ch' ≠ ch ∧ s.subscribers ch' = some m' := by
      have hset := Table.set_eq_some.1 hm'
      grind
    obtain ⟨x, hx, hid⟩ := hc ch' m' hold hopen
    refine ⟨x, (hlist m'.topic).symm ▸ ?_, hid⟩
    grind
  | closed hm hun => exact Table.forall_set (by simp [hun]) hc
  | @read ch m hm => exact Table.forall_set (hc ch m hm) hc
  | published sample partitions order allowed =>
    have hlist t : (s.publish b g sample partitions order allowed).list t = s.list t :=
      (collected_snapshot h.laid g sample.topic order).lists t
    exact fun ch m hm hopen => (hlist m.topic).symm ▸ hc ch m hm hopen
  | sent _ _ _ hm _ hsend =>
    obtain ⟨htopic, hun, -⟩ := send_same hsend
    exact Table.forall_set (fun hopen => htopic ▸ hc _ _ hm (hun ▸ hopen)) hc
  | _ => exact hc

/-- Whatever the order of the steps, the lists of either broker are those of the open
subscribers. -/
theorem listed_iff_open (b : Backend) (g : Growth) (es : List Step) (t : Str) (ch : Nat) :
    let s := (Run.run (step b g) new es).1
    ((s.list t).map fun x => x.id).Nodup ∧ ((∃ x ∈ s.list t, x.id = ch) ↔
      ∃ m, s.subscribers ch = some m ∧ m.topic = t ∧ m.unsubscribed = false) := by
  obtain ⟨h, hc⟩ := Run.run_invariant (I := fun s => Sound s ∧ s.Complete)
    (fun _ e h => ⟨sound_step h.1 b g e, complete_step h.1 h.2 e⟩)
    ⟨sound_new, by simp [Complete, new]⟩ es
  refine ⟨h.once t, ?_, ?_⟩
  · rintro ⟨x, hx, rfl⟩
    exact h.listed t x hx
  · rintro ⟨m, hm, rfl, hopen⟩
    exact hc ch m hm hopen

/-- **What a step does to memory**: every slot holds what it held, or a listed subscription. -/
theorem slot_step (h : s.Sound) (b : Backend) (g : Growth) (e : Step) {a : Nat}
    (ha : a < s.heap.next) (i : Nat) : (s.step b g e).1.heap.slot a i = s.heap.slot a i ∨
      ∃ t, (s.step b g e).1.heap.slot a i ∈ (s.step b g e).1.list t := by
  have hchange := step_change b g s e
  generalize (s.step b g e).1 = s', (s.step b g e).2 = os at hchange
  cases hchange with
  | subscribed topic qos cfg cf =>
    refine (slot_append_cases g (s.subs topic) _ ha i).imp_right fun hnew => ⟨topic, ?_⟩
    rw [list_subscribe h.laid, if_pos rfl]
    exact mem_append_right _ hnew
  | @unsubscribed ch m hm =>
    have hlist := list_removeSubscription (g := g) h.laid m.topic ch m.topic
    rw [if_pos rfl, eraseP_eq_eraseIdx] at hlist
    show (s.removeSubscription g m.topic ch).heap.slot a i = _ ∨
      ∃ t, (s.removeSubscription g m.topic ch).heap.slot a i ∈
        (s.removeSubscription g m.topic ch).list t
    unfold removeSubscription at hlist ⊢
    cases hidx : (s.list m.topic).findIdx? fun x => x.id = ch with
    | none => exact .inl rfl
    | some j =>
      rw [hidx] at hlist
      dsimp only at hlist ⊢
      refine (slot_append_cases g { s.subs m.topic with len := j } _ ha i).imp_right
        fun hnew => ⟨m.topic, ?_⟩
      rw [hlist, eraseIdx_eq_take_drop_succ]
      exact mem_append_right _ hnew
  | published sample partitions order allowed =>
    have hsnap := collected_snapshot (b := b) h.laid g sample.topic order
    refine (hsnap.slots a ha i).imp_right fun hnew => ?_
    obtain ⟨t, ht⟩ := hnew
    rw [← hsnap.lists t] at ht
    exact ⟨t, ht⟩
  | _ => exact .inl rfl

end State

end GoDDS.Inproc
