import GoDDS.Inproc.Broker

/-!
# Sends on closed channels

A subscriber that closes while a publish walks its list is still in that list, and the send on its
channel panics.
-/

namespace GoDDS.Inproc

open ByteCodec Go Mock List Table Option Slice Run

def Flight.todo (heap : Heap SubscriptionConfig) (f : Flight) : List SubscriptionConfig :=
  f.current.toList ++ (f.subs.elems heap).drop f.next

variable {f : Flight} {k : Nat} {x : SubscriptionConfig}

namespace State

variable {b : Backend} {g : Growth} {s : State}

/-- A publish on its way is still to send to the channel. -/
def Pending (b : Backend) (s : State) (ch : Nat) : Prop :=
  ∃ k < s.published, ∃ f ∈ s.flights k, ∃ x ∈ f.todo s.heap, x.id = ch ∧ b.wants f x = true

instance (b : Backend) (s : State) (ch : Nat) : Decidable (s.Pending b ch) :=
  inferInstanceAs (Decidable (∃ k < s.published, ∃ f ∈ s.flights k, ∃ x ∈ f.todo s.heap, _))

/-- A channel that is closed is one no publish is still to send to. -/
def ClosesIdle (b : Backend) (s : State) : Step → Prop
  | .close ch => ¬ s.Pending b ch
  | _ => True

instance (b : Backend) (s : State) (e : Step) : Decidable (s.ClosesIdle b e) := by
  unfold ClosesIdle
  split <;> infer_instance

def AllOpen (b : Backend) (s : State) : Prop :=
  ∀ k f, s.flights k = some f → ∀ x ∈ f.todo s.heap, b.wants f x = true →
    ∀ m, s.subscribers x.id = some m → m.closed = false

theorem closed_setSubscriber {c ch : Nat} {m m₁ m' : Subscriber} (hm : s.subscribers c = some m)
    (hsame : m₁.closed = m.closed) (h : (s.setSubscriber c m₁).subscribers ch = some m')
    (hclosed : m'.closed) : ∃ m, s.subscribers ch = some m ∧ m.closed := by
  change s.subscribers.set c m₁ ch = some m' at h
  rcases eq_or_ne ch c with rfl | hne
  · rw [set_self] at h
    rw [← some.inj h, hsame] at hclosed
    exact ⟨m, hm, hclosed⟩
  · rw [set_ne _ _ hne] at h
    exact ⟨m', h, hclosed⟩

theorem closed_step (hs : s.Sound) (b : Backend) (g : Growth) (e : Step) {ch : Nat} {m' : Subscriber}
    (hm' : (s.step b g e).1.subscribers ch = some m') (hclosed : m'.closed) :
    (∃ m, s.subscribers ch = some m ∧ m.closed) ∨ e = .close ch := by
  have hchange := step_change b g s e
  generalize (s.step b g e).1 = s', (s.step b g e).2 = os at hchange hm'
  cases hchange with
  | subscribed topic qos cfg cf =>
    change s.subscribers.set s.created _ ch = some m' at hm'
    rcases eq_or_ne ch s.created with rfl | hne
    · rw [set_self] at hm'
      rw [← some.inj hm'] at hclosed
      cases hclosed
    · rw [set_ne _ _ hne] at hm'
      exact .inl ⟨m', hm', hclosed⟩
  | @unsubscribed c m hm =>
    have hsubscribers := (s.removeSubscription_heap hs.laid g m.topic c).2.2.1
    rw [← hsubscribers] at hm
    rw [← hsubscribers]
    refine .inl (closed_setSubscriber hm ?_ hm' hclosed)
    rfl
  | @closed c m hm =>
    rcases eq_or_ne ch c with rfl | hne
    · exact .inr rfl
    · change s.subscribers.set c _ ch = some m' at hm'
      rw [set_ne _ _ hne] at hm'
      exact .inl ⟨m', hm', hclosed⟩
  | read hm =>
    refine .inl (closed_setSubscriber hm ?_ hm' hclosed)
    rfl
  | @sent k _ f x m m₁ hf _ _ hm _ hsend =>
    have hmoved : (s.setFlight k { f with current := none }).subscribers x.id = some m := hm
    exact .inl (closed_setSubscriber hmoved (send_same hsend).2.2 hm' hclosed)
  | _ => exact .inl ⟨m', hm', hclosed⟩

theorem todo_of_same (h : s.Sound) (b : Backend) (g : Growth) (e : Step) (hf : s.flights k = some f)
    (hx : x ∈ f.todo (s.step b g e).1.heap) :
    x ∈ f.todo s.heap ∨ ∃ t, x ∈ (s.step b g e).1.list t := by
  obtain ⟨-, hallocated, hbound⟩ := h.flights k f hf
  rcases mem_append.1 hx with hcurrent | hrest
  · exact .inl (mem_append_left _ hcurrent)
  · obtain ⟨i, hge, hlt, rfl⟩ := mem_drop_elems.1 hrest
    rcases slot_step h b g e (hallocated (by omega)) i with hsame | hnew
    · refine .inl (mem_append_right _ (mem_drop_elems.2 ⟨i, hge, hlt, hsame.symm⟩))
    · exact .inr hnew

theorem todo_setFlight {j : Nat} {f' f₁ : Flight} (hf : s.flights k = some f)
    (hsub : ∀ x ∈ f'.todo s.heap, x ∈ f.todo s.heap) (hsample : f'.sample = f.sample)
    (hpart : f'.partitions = f.partitions) (hf₁ : (s.setFlight k f').flights j = some f₁)
    (hx : x ∈ f₁.todo s.heap) :
    ∃ f, s.flights j = some f ∧ x ∈ f.todo s.heap ∧ f₁.sample = f.sample ∧
      f₁.partitions = f.partitions := by
  change s.flights.set k f' j = some f₁ at hf₁
  rcases eq_or_ne j k with rfl | hne
  · rw [set_self] at hf₁
    obtain rfl := some.inj hf₁
    exact ⟨f, hf, hsub x hx, hsample, hpart⟩
  · rw [set_ne _ _ hne] at hf₁
    exact ⟨f₁, hf₁, hx, rfl, rfl⟩

theorem todo_taken (heap : Heap SubscriptionConfig) (hcurrent : f.current = none)
    (hlt : f.next < f.subs.len) :
    Flight.todo heap { f with current := some (heap.slot f.subs.array f.next), next := f.next + 1 } =
      f.todo heap := by
  have hlen : f.next < (f.subs.elems heap).length := by
    rw [length_elems]
    exact hlt
  have hget := getElem?_elems (h := heap) hlt
  rw [getElem?_eq_getElem hlen] at hget
  unfold Flight.todo
  rw [hcurrent, drop_eq_getElem_cons hlen, some.inj hget]
  rfl

theorem todo_step (h : s.Sound) (b : Backend) (g : Growth) (e : Step) {f' : Flight}
    (hf' : (s.step b g e).1.flights k = some f') (hx : x ∈ f'.todo (s.step b g e).1.heap) :
    (∃ f, s.flights k = some f ∧ x ∈ f.todo s.heap ∧ f'.sample = f.sample ∧
        f'.partitions = f.partitions) ∨ ∃ t, x ∈ (s.step b g e).1.list t := by
  have hsame : s.flights k = some f' → (∃ f, s.flights k = some f ∧ x ∈ f.todo s.heap ∧
      f'.sample = f.sample ∧ f'.partitions = f.partitions) ∨ ∃ t, x ∈ (s.step b g e).1.list t :=
    fun hf => (todo_of_same h b g e hf hx).imp_left fun hold => ⟨f', hf, hold, rfl, rfl⟩
  have hserved : ∀ f : Flight, ∀ y ∈ Flight.todo s.heap { f with current := none },
      y ∈ f.todo s.heap := fun f y hy => mem_append_right _ hy
  have hchange := step_change b g s e
  generalize (s.step b g e).1 = s', (s.step b g e).2 = os at hchange hf' hx hsame
  cases hchange with
  | none => exact hsame hf'
  | subscribed topic qos cfg cf => exact hsame hf'
  | @unsubscribed ch m hm =>
    refine hsame ?_
    rw [← (s.removeSubscription_heap h.laid g m.topic ch).2.2.2.1]
    exact hf'
  | closed => exact hsame hf'
  | read => exact hsame hf'
  | published sample partitions order allowed =>
    have hsnap := collected_snapshot (b := b) h.laid g sample.topic order
    change (if b = .shmem ∨ allowed then _ else s.flights) k = some f' at hf'
    split_ifs at hf'
    · rcases eq_or_ne k s.published with rfl | hne
      · rw [set_self] at hf'
        obtain rfl := some.inj hf'
        refine .inr ?_
        have hmem : x ∈ s.list sample.topic ++ s.patternLists sample.topic order := by
          rw [← hsnap.elems]
          exact hx
        have hlisted : ∃ t, x ∈ s.list t := by
          rcases mem_append.1 hmem with hown | hpattern
          · exact ⟨_, hown⟩
          · obtain ⟨t, -, ht⟩ := mem_flatMap.1 hpattern
            split_ifs at ht
            · exact ⟨t, ht⟩
            · cases ht
        obtain ⟨t, ht⟩ := hlisted
        rw [← hsnap.lists t] at ht
        exact ⟨t, ht⟩
      · rw [set_ne _ _ hne] at hf'
        exact hsame hf'
    · exact hsame hf'
  | @fetched j f hf hcurrent hlt =>
    have htaken := todo_taken s.heap hcurrent hlt
    exact .inl (todo_setFlight hf (fun y hy => htaken ▸ hy) rfl rfl hf' hx)
  | @ended j f hf =>
    change s.flights.erase j k = some f' at hf'
    rcases eq_or_ne k j with rfl | hne
    · rw [erase_self] at hf'
      cases hf'
    · rw [erase_ne _ hne] at hf'
      exact .inl ⟨f', hf', hx, rfl, rfl⟩
  | @skipped j _ f _ hf => exact .inl (todo_setFlight hf (hserved f) rfl rfl hf' hx)
  | @offered j _ f _ hf => exact .inl (todo_setFlight hf (hserved f) rfl rfl hf' hx)
  | @sent j _ f _ _ _ hf => exact .inl (todo_setFlight hf (hserved f) rfl rfl hf' hx)
  | panicked => exact hsame hf'

theorem allOpen_step (hs : s.Sound) (h : s.AllOpen b) (g : Growth) {e : Step}
    (hidle : s.ClosesIdle b e) : (s.step b g e).1.AllOpen b := by
  have hs' := sound_step hs b g e
  intro k f' hf' x hx hwants m' hm'
  by_contra hopen
  have hclosed : m'.closed = true := Bool.eq_true_of_not_eq_false hopen
  rcases todo_step hs b g e hf' hx with ⟨f, hf, hx', hsample, hpart⟩ | ⟨t, ht⟩
  · have hwants' : b.wants f x := by
      rw [← hwants]
      unfold Backend.wants Backend.inPartition
      rw [hsample, hpart]
    rcases closed_step hs b g e hm' hclosed with ⟨m, hm, hc⟩ | rfl
    · rw [h k f hf x hx' hwants' m hm] at hc
      cases hc
    · exact hidle ⟨k, (hs.flights k f hf).1, f, hf, x, hx', rfl, hwants'⟩
  · obtain ⟨m, hm, -, hun⟩ := hs'.listed t x ht
    obtain rfl := some.inj (hm.symm.trans hm')
    rw [hs'.closing _ _ hm hclosed] at hun
    cases hun

theorem panicked_step (h : s.AllOpen b) (g : Growth) (e : Step) (k ch : Nat) :
    .panicked k ch ∉ (s.step b g e).2 := by
  have hchange := step_change b g s e
  generalize (s.step b g e).1 = s', (s.step b g e).2 = os at hchange
  cases hchange with
  | @panicked j _ f x m hf hcurrent hwants hm hclosed =>
    have htodo : x ∈ f.todo s.heap := by
      refine mem_append_left _ ?_
      rw [hcurrent]
      exact mem_singleton_self x
    rw [h j f hf x htodo hwants m hm] at hclosed
    cases hclosed
  | _ => simp

/-- In either broker, in every run in which a channel is closed only while no publish on its way is
still to send to it, no publish sends on a closed channel. -/
theorem never_panics (b : Backend) (g : Growth) (es : List Step)
    (hidle : Run.Along (fun _ s e => s.ClosesIdle b e) (step b g) [] new es) :
    ∀ k ch, .panicked k ch ∉ (Run.run (step b g) new es).2 := by
  have hnew : (new : State).AllOpen b := by
    intro k f hf
    cases hf
  intro k ch hmem
  refine outputs_of_along (I := fun s => s.Sound ∧ s.AllOpen b) (P := (· ≠ .panicked k ch)) ?_ ?_
    ⟨sound_new, hnew⟩ hidle _ hmem rfl
  · rintro _ s e ⟨hs, hopen⟩ hidle
    exact ⟨sound_step hs b g e, allOpen_step hs hopen g hidle⟩
  · rintro _ s e ⟨-, hopen⟩ - _ hnow rfl
    exact panicked_step hopen g e k ch hnow

def sampleA : Sample :=
  { topic := str "a", payload := [], timestamp := 0, sequenceNumber := 1, writerGUID := zeroGUID }

theorem close_after_publish :
    let es : List Step := [.subscribe (str "a") defaultQoS .ofDefaults none,
      .publish sampleA [] [str "a"] true, .fetch 0, .deliver 0 true, .fetch 0, .unsubscribe 0, .close 0]
    (∀ k ch, .panicked k ch ∉ (run (step .mock .doubling) new es).2) ∧
      ∀ k ch, .panicked k ch ∉ (run (step .shmem .doubling) new es).2 := by
  intro es
  exact ⟨never_panics .mock .doubling es (by decide +kernel),
    never_panics .shmem .doubling es (by decide +kernel)⟩

/-- The publish has taken the subscription from its list when the subscriber closes. -/
theorem close_during_publish :
    let es : List Step := [.subscribe (str "a") defaultQoS .ofDefaults none,
      .publish sampleA [] [str "a"] true, .fetch 0, .unsubscribe 0, .close 0, .deliver 0 true]
    .panicked 0 0 ∈ (run (step .mock .doubling) new es).2 ∧
      .panicked 0 0 ∈ (run (step .shmem .doubling) new es).2 := by decide +kernel

end State

end GoDDS.Inproc
