import GoDDS.Inproc.ClosedChannel

/-!
# The list a publish shares with the registry

Removing a subscription shifts the later ones down in the slice a publish walks, and an append may
write into the spare slots.
-/

namespace GoDDS.Inproc

open ByteCodec Go Mock Table Slice Option Backend Run
open List hiding lt_of_le_of_lt

def offersOf (k : Nat) (os : List Output) : List Nat :=
  os.filterMap fun o =>
    match o with
    | .offered j ch => if j = k then some ch else none
    | .panicked _ _ => none

theorem offersOf_append (k : Nat) (os os' : List Output) :
    offersOf k (os ++ os') = offersOf k os ++ offersOf k os' := filterMap_append

namespace State

variable {g : Growth} {s : State}

/-- The step writes into slots the publish still has to read: it removes a subscription of the topic
other than the last or, if the slice was extended in place, adds one. -/
def Clobbers (s : State) (f : Flight) : Step → Prop
  | .unsubscribe ch => ∃ m ∈ s.subscribers ch, f.subs.array = (s.subs m.topic).array ∧
      ∃ i ∈ (s.list m.topic).findIdx? fun x => x.id = ch, ∃ j < (s.subs m.topic).len,
        i ≤ j ∧ j + 1 < (s.subs m.topic).len ∧ f.next ≤ j ∧ j < f.subs.len
  | .subscribe topic _ _ _ => f.subs.array = (s.subs topic).array ∧
      (s.subs topic).len < (s.subs topic).cap ∧ f.next ≤ (s.subs topic).len ∧
      (s.subs topic).len < f.subs.len
  | .publish sample _ order _ => f.subs.array = (s.subs sample.topic).array ∧
      (s.subs sample.topic).len < (s.subs sample.topic).cap ∧
      0 < (s.patternLists sample.topic order).length ∧ f.next < f.subs.len ∧
      (s.subs sample.topic).len < f.subs.len
  | _ => False

instance (s : State) (f : Flight) : DecidablePred (s.Clobbers f)
  | .unsubscribe ch => inferInstanceAs (Decidable (∃ m ∈ s.subscribers ch,
      f.subs.array = (s.subs m.topic).array ∧
      ∃ i ∈ (s.list m.topic).findIdx? fun x => x.id = ch, ∃ j < (s.subs m.topic).len,
        i ≤ j ∧ j + 1 < (s.subs m.topic).len ∧ f.next ≤ j ∧ j < f.subs.len))
  | .subscribe _ _ _ _ => inferInstanceAs (Decidable (_ ∧ _ ∧ _ ∧ _))
  | .publish _ _ _ _ => inferInstanceAs (Decidable (_ ∧ _ ∧ _ ∧ _ ∧ _))
  | .close _ | .tryRead _ | .fetch _ | .deliver .. => isFalse id

/-! ## Steps that leave the slots alone -/

def Away (a j : Nat) (sl : Slice) : Prop := sl.array = a → j < sl.len ∨ sl.cap ≤ sl.len

theorem Away.append {a j : Nat} {h : Heap SubscriptionConfig} {sl : Slice} (haway : Away a j sl)
    (ha : a < h.next) (g : Growth) (xs : List SubscriptionConfig) : Away a j (sl.append g h xs).2 := by
  intro harray
  have hlen := sl.len_append g h xs
  rcases sl.append_array g h xs with ⟨ha', hcap, -, -⟩ | ⟨ha', -⟩
  · have := haway (ha'.symm.trans harray)
    omega
  · omega

theorem Away.slot {a j : Nat} {h : Heap SubscriptionConfig} {sl : Slice} (haway : Away a j sl)
    (ha : a < h.next) (g : Growth) (xs : List SubscriptionConfig) :
    (sl.append g h xs).1.slot a j = h.slot a j := by
  refine slot_append ha fun harray hfits hge => ?_
  have := haway harray.symm
  omega

theorem slot_collect {a j : Nat} {topic : Str} {order : List Str}
    {snap : Heap SubscriptionConfig × Slice} {xs : List SubscriptionConfig}
    (hsnap : Collected s snap xs) (ha : a < snap.1.next)
    (hout : Away a j snap.2 ∨ s.patternLists topic order = []) :
    (s.collect g topic snap order).1.slot a j = snap.1.slot a j := by
  induction order generalizing snap xs with
  | nil => rfl
  | cons t order ih =>
    have hcons : s.patternLists topic (t :: order) =
        (if t ≠ topic ∧ topicMatches t topic = true then s.list t else []) ++
          s.patternLists topic order := flatMap_cons
    rw [hcons, append_eq_nil_iff] at hout
    unfold collect
    rw [foldl_cons]
    split_ifs with ht
    · have hlist := hsnap.lists t
      have hslot : (snap.2.append g snap.1 ((s.subs t).elems snap.1)).1.slot a j =
          snap.1.slot a j := by
        rcases hout with haway | ⟨hnil, -⟩
        · exact haway.slot ha g _
        · rw [if_pos ht] at hnil
          rw [hlist, hnil]
          exact slot_append ha fun _ _ hge => hge
      refine (ih (hsnap.append g t) ?_ ?_).trans hslot
      · exact Nat.lt_of_lt_of_le ha (next_le_append g _ _ _)
      · exact hout.imp (fun haway => haway.append ha g _) And.right
    · exact ih hsnap ha (hout.imp_right And.right)

theorem slot_of_not_clobbers (h : s.Sound) {k : Nat} {f : Flight} (hf : s.flights k = some f)
    {e : Step} (hc : ¬ s.Clobbers f e) {j : Nat} (hge : f.next ≤ j) (hlt : j < f.subs.len) :
    (s.step .mock g e).1.heap.slot f.subs.array j = s.heap.slot f.subs.array j := by
  obtain ⟨-, hallocated, hbound⟩ := h.flights k f hf
  have ha : f.subs.array < s.heap.next := hallocated (by omega)
  have hchange := step_change .mock g s e
  generalize (s.step .mock g e).1 = s', (s.step .mock g e).2 = os at hchange
  cases hchange with
  | subscribed topic qos cfg cf =>
    refine slot_append ha fun harray hfits hle => ?_
    rw [length_singleton] at hfits ⊢
    by_contra hnot
    exact hc ⟨harray, by omega, by omega, by omega⟩
  | @unsubscribed ch m hm =>
    unfold removeSubscription
    cases hidx : (s.list m.topic).findIdx? fun x => x.id = ch with
    | none => rfl
    | some i =>
      refine slot_append ha fun harray _ hle => ?_
      have hi : i < (s.subs m.topic).len := by
        rw [← length_elems s.heap]
        exact (findIdx?_eq_some_iff_getElem.1 hidx).1
      rw [length_drop, length_elems]
      by_contra hnot
      dsimp only at harray hle hnot
      exact hc ⟨m, hm, harray, i, hidx, j, by omega, hle, by omega, hge, hlt⟩
  | published sample partitions order allowed =>
    have hown := collected_own (b := .mock) h.laid sample.topic
    refine slot_collect hown ha ?_
    by_contra hout
    rw [not_or] at hout
    obtain ⟨haway, hne⟩ := hout
    unfold Away at haway
    push Not at haway
    obtain ⟨harray, hle, hroom⟩ := haway
    exact hc ⟨harray.symm, hroom, length_pos_of_ne_nil hne, by omega, lt_of_le_of_lt hle hlt⟩
  | _ => rfl

/-! ## What a publish has served and has to serve -/

/-- The publish has offered its sample to those of the `seen` subscriptions in its partitions, and
not yet to the others. -/
def Serves (k : Nat) (partitions : List Str) (expected : List SubscriptionConfig) (s : State)
    (os : List Output) : Prop :=
  (∀ f, s.flights k = some f → f.partitions = partitions) ∧
    ∃ seen, seen ++ (s.flights k).elim [] (fun f => f.todo s.heap) = expected ∧
      offersOf k os =
        (seen.filter fun x => partitionsMatch partitions x.partitions).map fun x => x.id

variable {k : Nat} {partitions : List Str} {expected : List SubscriptionConfig} {os outs : List Output}

theorem Serves.of_same {s' : State} (h : Serves k partitions expected s os)
    (hflights : s'.flights k = s.flights k)
    (hslots : ∀ f, s.flights k = some f → ∀ j, f.next ≤ j → j < f.subs.len →
      s'.heap.slot f.subs.array j = s.heap.slot f.subs.array j)
    (houts : offersOf k outs = []) : Serves k partitions expected s' (os ++ outs) := by
  obtain ⟨hpart, seen, hseen, hoffers⟩ := h
  refine ⟨fun f hf => hpart f (hflights ▸ hf), seen, ?_, ?_⟩
  · rw [hflights]
    cases hf : s.flights k with
    | none =>
      rw [hf] at hseen
      exact hseen
    | some f =>
      rw [hf] at hseen
      have htodo : f.todo s'.heap = f.todo s.heap :=
        congrArg (f.current.toList ++ ·) (drop_elems_congr (hslots f hf))
      show seen ++ f.todo s'.heap = expected
      rw [htodo]
      exact hseen
  · rw [offersOf_append, houts, append_nil]
    exact hoffers

theorem Serves.served {s' : State} {f : Flight} {x : SubscriptionConfig}
    (h : Serves k partitions expected s os) (hf : s.flights k = some f)
    (hcurrent : f.current = some x) (hflights : s'.flights k = some { f with current := none })
    (hheap : s'.heap = s.heap)
    (houts : offersOf k outs = if partitionsMatch partitions x.partitions then [x.id] else []) :
    Serves k partitions expected s' (os ++ outs) := by
  obtain ⟨hpart, seen, hseen, hoffers⟩ := h
  refine ⟨fun f' hf' => ?_, seen ++ [x], ?_, ?_⟩
  · rw [hflights] at hf'
    rw [← some.inj hf']
    exact hpart f hf
  · rw [hflights, hheap]
    rw [hf] at hseen
    have htodo : f.todo s.heap = x :: Flight.todo s.heap { f with current := none } := by
      unfold Flight.todo
      rw [hcurrent]
      rfl
    change seen ++ f.todo s.heap = expected at hseen
    rw [htodo] at hseen
    rw [append_assoc]
    exact hseen
  · rw [offersOf_append, hoffers, houts, filter_append, map_append]
    congr 1
    by_cases hp : partitionsMatch partitions x.partitions
    · simp [hp]
    · simp [hp]

theorem offersOf_other {j ch : Nat} (hne : j ≠ k) : offersOf k [.offered j ch] = [] := by
  simp [offersOf, hne]

theorem offersOf_self (k ch : Nat) : offersOf k [.offered k ch] = [ch] := by
  simp [offersOf]

theorem published_le_step (hs : s.Sound) (b : Backend) (g : Growth) (e : Step) :
    s.published ≤ (s.step b g e).1.published := by
  have hchange := step_change b g s e
  generalize (s.step b g e).1 = s', (s.step b g e).2 = os at hchange
  cases hchange with
  | @unsubscribed ch m hm =>
    exact Nat.le_of_eq (s.removeSubscription_heap hs.laid g m.topic ch).2.2.2.2.2.symm
  | published => exact Nat.le_succ _
  | _ => exact Nat.le_refl _

theorem serves_step (hs : s.Sound) (hk : k < s.published) (h : Serves k partitions expected s os)
    {e : Step} (hc : ∀ f ∈ s.flights k, ¬ s.Clobbers f e) :
    Serves k partitions expected (s.step .mock g e).1 (os ++ (s.step .mock g e).2) ∨
      (s.step .mock g e).1.crashed ∧ (s.step .mock g e).1.flights k ≠ none := by
  have hslots : ∀ f, s.flights k = some f → ∀ j, f.next ≤ j → j < f.subs.len →
      (s.step .mock g e).1.heap.slot f.subs.array j = s.heap.slot f.subs.array j :=
    fun f hf j hge hlt => slot_of_not_clobbers hs hf (hc f hf) hge hlt
  have hchange := step_change .mock g s e
  generalize (s.step .mock g e).1 = s', (s.step .mock g e).2 = outs at hchange hslots
  cases hchange with
  | none => exact .inl (h.of_same rfl hslots rfl)
  | subscribed topic qos cfg cf => exact .inl (h.of_same rfl hslots rfl)
  | @unsubscribed ch m hm =>
    refine .inl (h.of_same ?_ hslots rfl)
    exact congrFun (s.removeSubscription_heap hs.laid g m.topic ch).2.2.2.1 k
  | closed => exact .inl (h.of_same rfl hslots rfl)
  | read => exact .inl (h.of_same rfl hslots rfl)
  | published sample partitions' order allowed =>
    refine .inl (h.of_same ?_ hslots rfl)
    show (if mock = .shmem ∨ allowed = true then _ else s.flights) k = s.flights k
    by_cases hgo : mock = .shmem ∨ allowed
    · rw [if_pos hgo]
      exact set_ne _ _ (Nat.ne_of_lt hk)
    · rw [if_neg hgo]
  | @fetched j f hf hcurrent hlt =>
    rcases eq_or_ne k j with rfl | hne
    · obtain ⟨hpart, seen, hseen, hoffers⟩ := h
      rw [hf] at hseen
      refine .inl ⟨fun f' hf' => ?_, seen, ?_, by rw [append_nil]; exact hoffers⟩
      · change s.flights.set k _ k = some f' at hf'
        rw [set_self] at hf'
        rw [← some.inj hf']
        exact hpart f hf
      · show seen ++ (s.flights.set k _ k).elim [] _ = expected
        rw [set_self]
        exact (congrArg (seen ++ ·) (todo_taken s.heap hcurrent hlt)).trans hseen
    · exact .inl (h.of_same (set_ne _ _ hne) hslots rfl)
  | @ended j f hf hcurrent hge =>
    rcases eq_or_ne k j with rfl | hne
    · obtain ⟨hpart, seen, hseen, hoffers⟩ := h
      rw [hf] at hseen
      have htodo : f.todo s.heap = [] := by
        unfold Flight.todo
        rw [hcurrent, drop_eq_nil_of_le]
        · rfl
        · rw [length_elems]
          exact hge
      change seen ++ f.todo s.heap = expected at hseen
      rw [htodo] at hseen
      refine .inl ⟨fun f' hf' => ?_, seen, ?_, by rw [append_nil]; exact hoffers⟩
      · change s.flights.erase k k = some f' at hf'
        rw [erase_self] at hf'
        cases hf'
      · show seen ++ (s.flights.erase k k).elim [] _ = expected
        rw [erase_self]
        exact hseen
    · exact .inl (h.of_same (erase_ne _ hne) hslots rfl)
  | @skipped j _ f x hf hcurrent hout =>
    rcases eq_or_ne k j with rfl | hne
    · have hno : partitionsMatch partitions x.partitions = false := h.1 f hf ▸ hout
      exact .inl (h.served hf hcurrent (set_self _ _ _) rfl (by rw [hno]; rfl))
    · exact .inl (h.of_same (set_ne _ _ hne) hslots rfl)
  | @offered j _ f x hf hcurrent hin =>
    rcases eq_or_ne k j with rfl | hne
    · have hyes : partitionsMatch partitions x.partitions := h.1 f hf ▸ hin
      refine .inl (h.served hf hcurrent (set_self _ _ _) rfl ?_)
      rw [hyes, offersOf_self]
      rfl
    · exact .inl (h.of_same (set_ne _ _ hne) hslots (offersOf_other hne.symm))
  | @sent j _ f x m m' hf hcurrent hwants hm hopen hsend =>
    rcases eq_or_ne k j with rfl | hne
    · have hyes : partitionsMatch partitions x.partitions :=
        h.1 f hf ▸ (Bool.and_eq_true_iff.1 hwants).1
      refine .inl (h.served hf hcurrent (set_self _ _ _) rfl ?_)
      rw [hyes, offersOf_self]
      rfl
    · exact .inl (h.of_same (set_ne _ _ hne) hslots (offersOf_other hne.symm))
  | @panicked j _ f x m hf hcurrent =>
    rcases eq_or_ne k j with rfl | hne
    · refine .inr ⟨rfl, ?_⟩
      rw [hf]
      exact some_ne_none f
    · refine .inl (h.of_same rfl hslots ?_)
      simp [offersOf, hne.symm]

/-! ## What is expected -/

theorem nodup_expected (h : s.Sound) (topic : Str) {order : List Str} (horder : order.Nodup) :
    ((s.list topic ++ s.patternLists topic order).map fun x => x.id).Nodup := by
  have hapart : ∀ {t t' : Str} {ch : Nat}, ch ∈ (s.list t).map (fun x => x.id) →
      ch ∈ (s.list t').map (fun x => x.id) → t = t' := by
    intro t t' ch ht ht'
    obtain ⟨x, hx, rfl⟩ := List.mem_map.1 ht
    obtain ⟨x', hx', hid⟩ := List.mem_map.1 ht'
    obtain ⟨m, hm, rfl, -⟩ := h.listed t x hx
    obtain ⟨m', hm', rfl, -⟩ := h.listed t' x' hx'
    rw [hid, hm] at hm'
    rw [some.inj hm']
  have hpattern : ∀ {ch : Nat}, ch ∈ (s.patternLists topic order).map (fun x => x.id) →
      ∃ t, t ≠ topic ∧ ch ∈ (s.list t).map (fun x => x.id) := by
    intro ch hch
    obtain ⟨x, hx, rfl⟩ := List.mem_map.1 hch
    obtain ⟨t, -, ht⟩ := mem_flatMap.1 hx
    split_ifs at ht with hfits
    · exact ⟨t, hfits.1, List.mem_map_of_mem ht⟩
    · cases ht
  rw [map_append, nodup_append]
  refine ⟨h.once topic, ?_, fun ch hch ch' hch' heq => ?_⟩
  · unfold patternLists
    rw [map_flatMap, nodup_flatMap]
    refine ⟨fun t _ => ?_, horder.imp fun {t t'} hne ch ht ht' => hne ?_⟩
    · split_ifs
      · exact h.once t
      · exact nodup_nil
    · dsimp only at ht ht'
      split_ifs at ht ht'
      · exact hapart ht ht'
      · cases ht'
      · cases ht
      · cases ht
  · obtain ⟨t, hne, ht⟩ := hpattern hch'
    exact hne (hapart (heq ▸ ht) hch)

/-- If no step writes into slots a publish still has to read, it offers its sample exactly once to
every subscription that was listed for the topic, or for a pattern that matches it, when the publish
began, and is in one of its partitions. -/
theorem offered_once (g : Growth) (past during : List Step) (sample : Sample)
    (partitions order : List Str) (t : Str) (x : SubscriptionConfig) :
    let s := (run (step .mock g) new past).1
    let k := s.published
    let q := (s.step .mock g (.publish sample partitions order true)).1
    s.crashed = false → order.Nodup → (∀ ch < s.created, ∀ m ∈ s.subscribers ch, m.topic ∈ order) →
      x ∈ s.list t → (t = sample.topic ∨ topicMatches t sample.topic = true) →
      partitionsMatch partitions x.partitions = true →
      Run.Along (fun _ s e => ∀ f ∈ s.flights k, ¬ s.Clobbers f e) (step .mock g) [] q during →
      (run (step .mock g) q during).1.flights k = none →
      (offersOf k (run (step .mock g) q during).2).count x.id = 1 := by
  intro s k q hrunning horder hall hx ht hpart hsafe hdone
  have hs : s.Sound := sound_run .mock g past
  let expected := s.list sample.topic ++ s.patternLists sample.topic order
  have hq : q = s.publish .mock g sample partitions order true := by
    show (s.step .mock g _).1 = _
    unfold step
    rw [if_neg (by rw [hrunning]; exact Bool.false_ne_true)]
  have hflight : q.flights k =
      some ⟨sample, partitions, (mock.snapshot g s sample.topic order).2, 0, none⟩ := by
    rw [hq]
    show (if mock = .shmem ∨ true = true then _ else s.flights) s.published = _
    rw [if_pos (.inr rfl)]
    exact set_self _ _ _
  have hheap : q.heap = (mock.snapshot g s sample.topic order).1 := by
    rw [hq]
    rfl
  have hfirst : Serves k partitions expected q [] := by
    refine ⟨fun f hf => ?_, [], ?_, rfl⟩
    · rw [hflight] at hf
      rw [← some.inj hf]
    · rw [hflight, hheap]
      exact (collected_snapshot (b := .mock) hs.laid g sample.topic order).elems
  have hrun := run_induction (J := fun p _ os => p.Sound ∧ k < p.published ∧
      (Serves k partitions expected p os ∨ p.crashed = true ∧ p.flights k ≠ none)) ?_
    ⟨sound_step hs .mock g _, ?_, .inl hfirst⟩ hsafe
  · obtain ⟨-, -, ⟨-, seen, hseen, hoffers⟩ | ⟨-, hflying⟩⟩ := hrun
    · rw [hdone] at hseen
      change seen ++ [] = expected at hseen
      rw [append_nil] at hseen
      rw [hoffers, hseen]
      refine count_eq_one_of_mem ?_ (List.mem_map_of_mem (mem_filter.2 ⟨?_, hpart⟩))
      · exact (filter_sublist.map _).nodup (nodup_expected hs sample.topic horder)
      · by_cases htopic : t = sample.topic
        · exact mem_append_left _ (htopic ▸ hx)
        · obtain ⟨m, hm, hmt, -⟩ := hs.listed t x hx
          have hmem : t ∈ order := hmt ▸ hall x.id (hs.numbered _ _ hm) m hm
          refine mem_append_right _ (mem_flatMap.2 ⟨t, hmem, ?_⟩)
          rw [if_pos ⟨htopic, ht.resolve_left htopic⟩]
          exact hx
    · exact absurd hdone hflying
  · rintro p e _ os hc ⟨hp, hk, hserves | ⟨hcrashed, hflying⟩⟩
    · exact ⟨sound_step hp .mock g e, Nat.lt_of_lt_of_le hk (published_le_step hp .mock g e),
        serves_step hp hk hserves hc⟩
    · have hstill : p.step .mock g e = (p, []) := if_pos hcrashed
      rw [hstill]
      exact ⟨hp, hk, .inr ⟨hcrashed, hflying⟩⟩
  · rw [hq]
    exact Nat.lt_succ_self _

def subscribeA : Step := .subscribe (str "a") defaultQoS .ofDefaults none

theorem offered_once_of_two :
    let s := (run (step .mock .doubling) new [subscribeA, subscribeA]).1
    let q := (s.step .mock .doubling (.publish sampleA [] [str "a"] true)).1
    let during : List Step := [.fetch 0, .deliver 0 true, subscribeA, .unsubscribe 2, .fetch 0,
      .deliver 0 true, .fetch 0]
    ∀ x ∈ s.list (str "a"),
      (offersOf 0 (run (step .mock .doubling) q during).2).count x.id = 1 := by
  intro s q during x hx
  have hpart : ∀ x ∈ s.list (str "a"), partitionsMatch [] x.partitions = true := by decide +kernel
  exact offered_once .doubling [subscribeA, subscribeA] during sampleA [] [str "a"] (str "a") x
    (by decide +kernel) (by decide) (by decide +kernel) hx (.inl rfl) (hpart x hx)
    (by decide +kernel) (by decide +kernel)

/-- The first of three subscribers is removed once it is served. The second is never offered the
sample, the third twice. -/
theorem removal_shifts_walked_list :
    let s := (run (step .mock .doubling) new [subscribeA, subscribeA, subscribeA]).1
    let q := (s.step .mock .doubling (.publish sampleA [] [str "a"] true)).1
    let run := run (step .mock .doubling) q [.fetch 0, .deliver 0 true, .unsubscribe 0, .fetch 0,
      .deliver 0 true, .fetch 0, .deliver 0 true, .fetch 0]
    (s.list (str "a")).map (fun x => x.id) = [0, 1, 2] ∧
      (run.1.list (str "a")).map (fun x => x.id) = [1, 2] ∧
      offersOf 0 run.2 = [0, 2, 2] ∧ (run.1.flights 0).isNone = true := by decide +kernel

end State

end GoDDS.Inproc
