import GoDDS.Rtps.OwnershipTable

/-!
# Peers that come back while they are evicted
-/

namespace GoDDS.Rejoin

open ByteCodec Go Participant Security List Registry Run FixedBytes

/-! ## The steps -/

structure Announced where
  sender : GuidPrefix
  isWriter : Bool
  guid : GUID
  deriving DecidableEq

structure State where
  p : Participant
  /-- the handlers that have stored a new peer and not yet made the callback -/
  gains : List GuidPrefix
  /-- the peers `evictExpired` has yet to deal with; `true` once the endpoints are cleared -/
  evicting : List (GuidPrefix × Bool)
  log : List (GuidPrefix × LivelinessEvent)
  /-- the endpoints announced by each sender since it last entered the table -/
  since : List Announced

def State.start (p : Participant) : State := ⟨p, [], [], [], []⟩

def Knows (p : Participant) (g : GuidPrefix) : Prop := (p.spdp.peers.get? g).isSome
  deriving Decidable

/-- `evictExpired` takes expired peers out of the table under its lock, and later clears the
endpoints of each and makes the `Lost` callback; `storePeer` likewise makes the `Gained` callback.
-/
inductive Event where
  /-- `storePeer`, up to the callback -/
  | announce (proxy : ParticipantProxy) (now : Int)
  /-- the callback of the `i`-th handler that has to make one -/
  | gained (i : Nat)
  /-- `evictExpired` empties the table; `order` is the order the map is read in -/
  | scan (now : Int) (order : List GuidPrefix)
  /-- `onPeerEvicted` for the next peer -/
  | clear
  /-- the callback for the next peer -/
  | lost
  /-- `onRemoteWriter` or `onRemoteReader`, for an announcement by `sender` -/
  | endpoint (sender : GuidPrefix) (info : EndpointInfo) (dataLocator : Locator) (now : Int)

def storeEndpoint (p : Participant) (info : EndpointInfo) (dataLocator : Locator) (now : Int) :
    Participant :=
  if info.isWriter then p.onRemoteWriter info dataLocator now else p.onRemoteReader info dataLocator

def next (s : State) : Event → State
  | .announce proxy now =>
    let p := (s.p.storePeer proxy now).1
    if Knows s.p proxy.key then { s with p }
    else
      { s with
        p
        gains := s.gains ++ [proxy.key]
        since := s.since.filter fun a => a.sender ≠ proxy.key }
  | .gained i =>
    match s.gains[i]? with
    | none => s
    | some g => { s with gains := s.gains.eraseIdx i, log := s.log ++ [(g, .gained)] }
  | .scan now order =>
    -- the ticker of the one evicting goroutine is read again only when it is done
    if s.evicting = [] ∧ order.Perm (s.p.expiredPrefixes now) then
      { s with p := s.p.dropExpired now, evicting := order.map fun g => (g, false) }
    else s
  | .clear =>
    match s.evicting with
    | (g, false) :: rest => { s with p := s.p.onPeerEvicted g, evicting := (g, true) :: rest }
    | _ => s
  | .lost =>
    match s.evicting with
    | (g, true) :: rest => { s with evicting := rest, log := s.log ++ [(g, .lost)] }
    | _ => s
  | .endpoint sender info dataLocator now =>
    { s with
      p := storeEndpoint s.p info dataLocator now
      since := s.since ++ [⟨sender, info.isWriter, info.guid⟩] }

def turn (s : State) (e : Event) : State × List Unit := (next s e, [])

/-! ## What is asked of them -/

def callbacks (s : State) (g : GuidPrefix) : List LivelinessEvent :=
  (s.log.filter fun c => c.1 = g).map Prod.snd

def due (n : Nat) : LivelinessEvent := if n % 2 = 0 then .gained else .lost

def Alternates (es : List LivelinessEvent) : Prop := ∀ i e, es[i]? = some e → e = due i

def tableOf (p : Participant) (isWriter : Bool) : Registry EndpointInfo.guid :=
  if isWriter then p.sedp.remoteWriters else p.sedp.remoteReaders

def Held (p : Participant) (a : Announced) : Prop := ((tableOf p a.isWriter).get? a.guid).isSome
  deriving Decidable

/-- Events and tables agree: the callbacks about a peer alternate, the last tells whether it is
in the table when nothing is in progress, and endpoints announced since it entered are in the
tables. -/
structure Agrees (s : State) : Prop where
  alternate : ∀ g, Alternates (callbacks s g)
  settled : s.gains = [] → s.evicting = [] →
    ∀ g, (callbacks s g).getLast? = some .gained ↔ Knows s.p g
  held : ∀ a ∈ s.since, Knows s.p a.sender → Held s.p a

def listed (s : State) (g : GuidPrefix) : Nat := if Knows s.p g then 1 else 0

def leaving (s : State) (g : GuidPrefix) : Nat := (s.evicting.map Prod.fst).count g

/-- The `Gained` callbacks to be made are as many as the table entry and the `Lost` callbacks to be
made account for, one less if it is a `Lost`; endpoints are cleared only if none was announced
since. -/
def InTurn (s : State) : Event → Prop
  | .gained i => ∀ g, s.gains[i]? = some g → s.gains.count g = listed s g + leaving s g
  | .lost => ∀ g rest, s.evicting = (g, true) :: rest →
      s.gains.count g + 1 = listed s g + leaving s g
  | .clear => ∀ g rest, s.evicting = (g, false) :: rest →
      ∀ a ∈ s.since, Knows s.p a.sender → a.guid.guidPrefix ≠ g
  | _ => True

theorem alternates_nil : Alternates [] := by
  intro i e h
  cases h

variable {g : GuidPrefix} {es : List LivelinessEvent} {e : LivelinessEvent} {s : State}

theorem alternates_concat (h : Alternates es) : Alternates (es ++ [e]) ↔ e = due es.length := by
  refine ⟨fun h' => h' es.length e (by simp), fun he i e' hi => ?_⟩
  rcases Nat.lt_or_ge i es.length with hlt | hge
  · rw [getElem?_append_left hlt] at hi
    exact h i e' hi
  · rw [getElem?_append_right hge, getElem?_singleton] at hi
    split_ifs at hi with hzero
    obtain rfl : e = e' := Option.some.inj hi
    rwa [show i = es.length by omega]

theorem count_of_alternates (h : Alternates es) :
    es.count .gained = (es.length + 1) / 2 ∧ es.count .lost = es.length / 2 := by
  induction es using List.reverseRecOn with
  | nil => exact ⟨rfl, rfl⟩
  | append_singleton es e ih =>
    have hes : Alternates es := by
      intro i e' hi
      refine h i e' ?_
      rw [getElem?_append_left (List.getElem?_eq_some_iff.1 hi).1]
      exact hi
    obtain rfl := (alternates_concat hes).1 h
    obtain ⟨hgained, hlost⟩ := ih hes
    by_cases heven : es.length % 2 = 0
    all_goals
      simp [due, heven, hgained, hlost]
      omega

theorem due_iff (h : Alternates es) :
    (.gained = due es.length ↔ es.count .gained = es.count .lost) ∧
      (.lost = due es.length ↔ es.count .gained = es.count .lost + 1) := by
  obtain ⟨hgained, hlost⟩ := count_of_alternates h
  unfold due
  split_ifs with heven
  all_goals
    simp only [hgained, hlost, true_iff, false_iff]
    omega

theorem getLast?_eq_gained_iff (h : Alternates es) :
    es.getLast? = some .gained ↔ es.count .gained = es.count .lost + 1 := by
  obtain ⟨hgained, hlost⟩ := count_of_alternates h
  cases hes : es.length with
  | zero =>
    obtain rfl := length_eq_zero_iff.1 hes
    simp
  | succ n =>
    have hlast : es.getLast? = some (due n) := by
      rw [getLast?_eq_getElem?, hes, Nat.add_sub_cancel,
        getElem?_eq_getElem (by omega), h n _ (getElem?_eq_getElem (by omega))]
    rw [hlast, hgained, hlost, hes, Option.some.injEq, due]
    split_ifs with heven <;> simp <;> omega

/-! ## The balance -/

def Balanced (s : State) : Prop :=
  ∀ g, (callbacks s g).count .gained + s.gains.count g =
    (callbacks s g).count .lost + leaving s g + listed s g

theorem balanced_start {p : Participant} (h : ∀ g, ¬ Knows p g) : Balanced (.start p) := by
  intro g
  simp [State.start, callbacks, leaving, listed, h g]

theorem callbacks_concat (s s' : State) (h : s'.log = s.log ++ [(g, e)]) (g' : GuidPrefix) :
    callbacks s' g' = if g = g' then callbacks s g' ++ [e] else callbacks s g' := by
  rw [callbacks, h, filter_append, map_append]
  by_cases hg : g = g' <;> simp [hg, callbacks]

theorem count_eraseIdx {l : List GuidPrefix} {i : Nat} (h : l[i]? = some g) (g' : GuidPrefix) :
    l.count g' = (l.eraseIdx i).count g' + if g = g' then 1 else 0 := by
  obtain ⟨hi, rfl⟩ := List.getElem?_eq_some_iff.1 h
  have hperm : l.Perm (l[i] :: l.eraseIdx i) := (getElem_cons_eraseIdx_perm hi).symm
  rw [hperm.count_eq, count_cons]
  simp

variable (p : Participant)

theorem knows_storePeer (proxy : ParticipantProxy) (now : Int) (g : GuidPrefix) :
    Knows (p.storePeer proxy now).1 g ↔ g = proxy.key ∨ Knows p g := by
  have hkey : (p.completeProxy proxy now).key = proxy.key := rfl
  simp only [Knows, storePeer, get?_insert, hkey]
  by_cases hg : g = proxy.key <;> simp [hg]

theorem knows_storeEndpoint (info : EndpointInfo) (dataLocator : Locator)
    (now : Int) (g : GuidPrefix) : Knows (storeEndpoint p info dataLocator now) g ↔ Knows p g := by
  rw [storeEndpoint]
  split_ifs <;> rfl

theorem count_expired (now : Int) (g : GuidPrefix) : (if Knows p g then 1 else 0) =
      (p.expiredPrefixes now).count g + if Knows (p.dropExpired now) g then 1 else 0 := by
  have hnodup : (p.expiredPrefixes now).Nodup :=
    p.spdp.peers.nodup.sublist (filter_sublist.map _)
  have hmem : g ∈ p.expiredPrefixes now ↔
      ∃ peer, p.spdp.peers.get? g = some peer ∧ expired now peer := by
    simp only [expiredPrefixes, List.mem_map, mem_filter, get?_eq_some]
    constructor <;> rintro ⟨peer, hpeer, h⟩ <;> exact ⟨peer, ⟨hpeer.1, h⟩, hpeer.2⟩
  have hstays : Knows (p.dropExpired now) g ↔
      ∃ peer, p.spdp.peers.get? g = some peer ∧ ¬ expired now peer := by
    simp only [Knows, Option.isSome_iff_exists, dropExpired, get?_eq_some,
      items_filter, mem_filter, Bool.not_eq_true']
    constructor
    · rintro ⟨peer, hpeer, hkey⟩
      exact ⟨peer, ⟨hpeer.1, hkey⟩, by simp [hpeer.2]⟩
    · rintro ⟨peer, hpeer, hexp⟩
      exact ⟨peer, ⟨hpeer.1, by simpa using hexp⟩, hpeer.2⟩
  cases hget : p.spdp.peers.get? g with
  | none =>
    have hnot : g ∉ p.expiredPrefixes now := by simp [hmem, hget]
    have hgone : ¬ Knows (p.dropExpired now) g := by simp [hstays, hget]
    rw [count_eq_zero_of_not_mem hnot, if_neg hgone, if_neg (by simp [Knows, hget])]
  | some peer =>
    rw [if_pos (by simp [Knows, hget])]
    by_cases hexp : expired now peer
    · have hgone : ¬ Knows (p.dropExpired now) g := by simp [hstays, hget, hexp]
      have hin : g ∈ p.expiredPrefixes now := hmem.2 ⟨peer, hget, hexp⟩
      rw [count_eq_one_of_mem hnodup hin, if_neg hgone]
    · have hnot : g ∉ p.expiredPrefixes now := by simp [hmem, hget, hexp]
      rw [count_eq_zero_of_not_mem hnot, if_pos (hstays.2 ⟨peer, hget, hexp⟩)]

theorem balanced_next (h : Balanced s) (e : Event) : Balanced (next s e) := by
  intro g
  have hg := h g
  cases e with
  | announce proxy now =>
    have hknows := knows_storePeer s.p proxy now
    rw [next]
    by_cases hknown : Knows s.p proxy.key
    · rw [if_pos hknown]
      have hsame : Knows (s.p.storePeer proxy now).1 g ↔ Knows s.p g := by
        rw [hknows]
        exact ⟨fun hor => hor.elim (fun heq => heq ▸ hknown) id, .inr⟩
      simp only [listed, hsame] at hg ⊢
      exact hg
    · rw [if_neg hknown]
      simp only [listed, leaving, callbacks, hknows, count_append, count_singleton] at hg ⊢
      by_cases hkey : g = proxy.key
      · subst hkey
        simp [hknown] at hg ⊢
        omega
      · simp [hkey, Ne.symm hkey] at hg ⊢
        omega
  | gained i =>
    rw [next]
    cases hi : s.gains[i]? with
    | none => exact hg
    | some g₀ =>
      dsimp only
      have hcount := count_eraseIdx hi g
      rw [callbacks_concat s _ rfl g]
      simp only [leaving, listed] at hg ⊢
      by_cases hgg : g₀ = g
      all_goals
        simp [hgg] at hcount ⊢
        omega
  | scan now order =>
    rw [next]
    by_cases hgo : s.evicting = [] ∧ order.Perm (s.p.expiredPrefixes now)
    · rw [if_pos hgo]
      have hexp := count_expired s.p now g
      have hcount := hgo.2.count_eq g
      simp only [leaving, listed, callbacks, hgo.1, map_nil, count_nil, List.map_map] at hg ⊢
      have hmap : order.map (Prod.fst ∘ fun g => (g, false)) = order := by
        simp [Function.comp_def]
      rw [hmap]
      omega
    · rw [if_neg hgo]
      exact hg
  | clear =>
    rw [next]
    split
    · next g₀ rest hev =>
      simp only [leaving, listed, callbacks, hev] at hg ⊢
      exact hg
    · exact hg
  | lost =>
    rw [next]
    split
    · next g₀ rest hev =>
      rw [callbacks_concat s _ rfl g]
      simp only [leaving, listed, hev, map_cons, count_cons] at hg ⊢
      by_cases hgg : g₀ = g
      all_goals
        simp [hgg] at hg ⊢
        omega
    · exact hg
  | endpoint sender info dataLocator now =>
    rw [next]
    simp only [leaving, listed, callbacks, knows_storeEndpoint] at hg ⊢
    exact hg

/-! ## One step -/

theorem settled_of_balanced (hbal : Balanced s) (halt : ∀ g, Alternates (callbacks s g))
    (hgains : s.gains = []) (hevicting : s.evicting = []) (g : GuidPrefix) :
    (callbacks s g).getLast? = some .gained ↔ Knows s.p g := by
  have hg := hbal g
  rw [getLast?_eq_gained_iff (halt g)]
  simp only [hgains, leaving, hevicting, listed, count_nil, map_nil] at hg
  by_cases hknown : Knows s.p g
  all_goals
    simp [hknown] at hg ⊢
    omega

theorem agrees_iff (hbal : Balanced s) : Agrees s ↔ (∀ g, Alternates (callbacks s g)) ∧
      ∀ a ∈ s.since, Knows s.p a.sender → Held s.p a :=
  ⟨fun h => ⟨h.alternate, h.held⟩,
    fun h => ⟨h.1, fun hgains hev g => settled_of_balanced hbal h.1 hgains hev g, h.2⟩⟩

theorem alternates_next_iff (s' : State) (h : ∀ g, Alternates (callbacks s g))
    (hlog : s'.log = s.log ++ [(g, e)]) :
    (∀ g', Alternates (callbacks s' g')) ↔ e = due (callbacks s g).length := by
  have hcb := callbacks_concat s s' hlog
  constructor
  · intro hall
    have hg := hall g
    rw [hcb, if_pos rfl] at hg
    exact (alternates_concat (h g)).1 hg
  · intro hdue g'
    rw [hcb]
    split_ifs with hgg
    · subst hgg
      exact (alternates_concat (h g)).2 hdue
    · exact h g'

theorem held_onPeerEvicted (gone : GuidPrefix) (a : Announced) :
    Held (p.onPeerEvicted gone) a ↔ Held p a ∧ a.guid.guidPrefix ≠ gone := by
  have htable : tableOf (p.onPeerEvicted gone) a.isWriter =
      (tableOf p a.isWriter).filter fun info => info.guid.guidPrefix ≠ gone := by
    rw [tableOf, tableOf]
    split_ifs <;> rfl
  simp only [Held, htable, Option.isSome_iff_exists, get?_eq_some, items_filter,
    mem_filter, decide_eq_true_iff]
  constructor
  · rintro ⟨info, ⟨hinfo, hne⟩, hkey⟩
    exact ⟨⟨info, hinfo, hkey⟩, hkey ▸ hne⟩
  · rintro ⟨⟨info, hinfo, hkey⟩, hne⟩
    exact ⟨info, ⟨hinfo, hkey ▸ hne⟩, hkey⟩

theorem held_storeEndpoint (info : EndpointInfo) (dataLocator : Locator)
    (now : Int) (a : Announced) : Held (storeEndpoint p info dataLocator now) a ↔
      a.isWriter = info.isWriter ∧ a.guid = info.guid ∨ Held p a := by
  have htable : tableOf (storeEndpoint p info dataLocator now) a.isWriter =
      if a.isWriter = info.isWriter then (tableOf p a.isWriter).insert info
      else tableOf p a.isWriter := by
    rw [storeEndpoint]
    cases info.isWriter <;> cases a.isWriter <;> rfl
  rw [Held, htable]
  by_cases hkind : a.isWriter = info.isWriter
  · rw [if_pos hkind, get?_insert]
    by_cases hguid : a.guid = info.guid <;> simp [hkind, hguid, Held]
  · rw [if_neg hkind]
    simp [hkind, Held]

theorem agrees_next_iff (hbal : Balanced s) (h : Agrees s) (e : Event) :
    Agrees (next s e) ↔ InTurn s e := by
  rw [agrees_iff (balanced_next hbal e)]
  cases e with
  | announce proxy now =>
    have hknows := knows_storePeer s.p proxy now
    refine iff_of_true ?_ trivial
    rw [next]
    by_cases hknown : Knows s.p proxy.key
    · rw [if_pos hknown]
      refine ⟨h.alternate, fun a ha hsender => h.held a ha ?_⟩
      exact ((hknows a.sender).1 hsender).elim (fun heq => heq ▸ hknown) id
    · rw [if_neg hknown]
      refine ⟨h.alternate, fun a ha hsender => ?_⟩
      obtain ⟨ha, hne⟩ := mem_filter.1 ha
      exact h.held a ha (((hknows a.sender).1 hsender).resolve_left (by simpa using hne))
  | gained i =>
    rw [next, InTurn]
    cases hi : s.gains[i]? with
    | none => exact iff_of_true ⟨h.alternate, h.held⟩ fun g hg => by cases hg
    | some g =>
      have hiff := alternates_next_iff (next s (.gained i)) h.alternate (g := g) (e := .gained)
        (by rw [next, hi])
      rw [next, hi] at hiff
      rw [hiff, (due_iff (h.alternate g)).1]
      have hg := hbal g
      simp only [Option.some.injEq, forall_eq']
      exact ⟨fun hdue => by omega, fun hturn => ⟨by omega, h.held⟩⟩
  | scan now order =>
    refine iff_of_true ?_ trivial
    rw [next]
    by_cases hgo : s.evicting = [] ∧ order.Perm (s.p.expiredPrefixes now)
    · rw [if_pos hgo]
      refine ⟨h.alternate, fun a ha hsender => h.held a ha ?_⟩
      have hexp := count_expired s.p now a.sender
      rw [if_pos hsender] at hexp
      by_contra hknown
      rw [if_neg hknown] at hexp
      omega
    · rw [if_neg hgo]
      exact ⟨h.alternate, h.held⟩
  | clear =>
    rw [next, InTurn]
    cases hev : s.evicting with
    | nil => exact iff_of_true ⟨h.alternate, h.held⟩ fun g rest hcons => by cases hcons
    | cons head rest =>
      obtain ⟨g, cleared⟩ := head
      cases cleared with
      | true => exact iff_of_true ⟨h.alternate, h.held⟩ fun g rest hcons => by cases hcons
      | false =>
        dsimp only
        constructor
        · rintro ⟨-, hheld⟩ g' rest' hcons a ha hsender
          cases hcons
          exact ((held_onPeerEvicted s.p g a).1 (hheld a ha hsender)).2
        · intro hin
          refine ⟨h.alternate, fun a ha hsender => (held_onPeerEvicted s.p g a).2 ?_⟩
          exact ⟨h.held a ha hsender, hin g rest rfl a ha hsender⟩
  | lost =>
    rw [next, InTurn]
    cases hev : s.evicting with
    | nil => exact iff_of_true ⟨h.alternate, h.held⟩ fun g rest hcons => by cases hcons
    | cons head rest =>
      obtain ⟨g, cleared⟩ := head
      cases cleared with
      | false => exact iff_of_true ⟨h.alternate, h.held⟩ fun g rest hcons => by cases hcons
      | true =>
        have hiff := alternates_next_iff (next s .lost) h.alternate (g := g) (e := .lost)
          (by rw [next, hev])
        rw [next, hev] at hiff
        rw [hiff, (due_iff (h.alternate g)).2]
        have hg := hbal g
        refine ⟨fun hdue g' rest' hcons => ?_, fun hin => ?_⟩
        · cases hcons
          omega
        · have hturn := hin g rest rfl
          exact ⟨by omega, h.held⟩
  | endpoint sender info dataLocator now =>
    refine iff_of_true ⟨h.alternate, fun a ha hsender => ?_⟩ trivial
    refine (held_storeEndpoint s.p info dataLocator now a).2 ?_
    rcases mem_append.1 ha with ha | ha
    · exact .inr (h.held a ha ((knows_storeEndpoint ..).1 hsender))
    · obtain rfl := mem_singleton.1 ha
      exact .inl ⟨rfl, rfl⟩

theorem not_knows_new (cfg : ParticipantConfig) (antiReplay : Option ReplayGuard) (g : GuidPrefix) :
    ¬ Knows (Participant.new cfg antiReplay) g := by
  intro h
  cases h

theorem agrees_start (cfg : ParticipantConfig) (antiReplay : Option ReplayGuard) :
    Agrees (.start (.new cfg antiReplay)) :=
  (agrees_iff (balanced_start (not_knows_new cfg antiReplay))).2
    ⟨fun _ => alternates_nil, fun _ ha => absurd ha not_mem_nil⟩

/-- Events and tables agree in every state of a run exactly if no callback is made out of turn and
no endpoint of a peer in the table is cleared. -/
theorem discovery_events_iff (cfg : ParticipantConfig) (antiReplay : Option ReplayGuard)
    (events : List Event) : (∀ past rest, events = past ++ rest →
        Agrees (Run.run turn (.start (.new cfg antiReplay)) past).1) ↔
      Run.Along (fun _ s e => InTurn s e) turn [] (.start (.new cfg antiReplay)) events := by
  have hbal := balanced_start (not_knows_new cfg antiReplay)
  have hinv : ∀ past, Balanced (run turn (.start (.new cfg antiReplay)) past).1 :=
    fun past => run_invariant (I := Balanced) (fun s e h => balanced_next h e) hbal past
  have hiff : (∀ past rest, events = past ++ rest →
      Balanced (run turn (.start (.new cfg antiReplay)) past).1 ∧
        Agrees (run turn (.start (.new cfg antiReplay)) past).1) ↔
      Run.Along (fun _ s e => InTurn s e) turn [] (.start (.new cfg antiReplay)) events := by
    refine forall_states_iff_along (I := fun s => Balanced s ∧ Agrees s)
      (D := fun _ _ _ => True) (fun _ s e h _ => ?_) ⟨hbal, agrees_start cfg antiReplay⟩
      (along_of_forall (fun _ _ _ => trivial) _ _ _)
    rw [← agrees_next_iff h.1 h.2 e]
    exact ⟨fun hnext => hnext.2, fun hagrees => ⟨balanced_next h.1 e, hagrees⟩⟩
  rw [← hiff]
  refine forall_congr' fun past => forall_congr' fun rest => imp_congr_right fun _ => ?_
  exact ⟨fun hagrees => ⟨hinv past, hagrees⟩, fun h => h.2⟩

/-- A peer expires and is announced again, with a writer, before its endpoints are cleared: it is in
the table, without its writer, and was last reported as lost. -/
theorem rejoined_while_evicted :
    let g : GUID := ⟨copy 12 [2], copy 4 [1]⟩
    let s := (run turn (.start (.new (.ofDefaults (copy 12 [1])) none))
      [.announce (.start g.guidPrefix) 0, .gained 0, .scan (11 * second) [g.guidPrefix],
        .announce (.start g.guidPrefix) (11 * second), .gained 0,
        .endpoint g.guidPrefix (exclusiveInfo g (str "a") 1) zeroLocator (11 * second),
        .clear, .lost]).1
    s.gains = [] ∧ s.evicting = [] ∧ callbacks s g.guidPrefix = [.gained, .gained, .lost] ∧
      Knows s.p g.guidPrefix ∧ s.since = [⟨g.guidPrefix, true, g⟩] ∧
      ¬ Held s.p ⟨g.guidPrefix, true, g⟩ := by decide +kernel

end GoDDS.Rejoin
