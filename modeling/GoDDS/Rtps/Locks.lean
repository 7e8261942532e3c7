import GoDDS.Lib.Go
import GoDDS.Lib.LockOrder
import GoDDS.Rtps.Guid

/-!
# The locks of a participant

The operations of a participant, reduced to their critical sections.
-/

namespace GoDDS.Locks

open Go LockOrder LockOrder.Prog

/-- The mutexes; writers and readers are numbered. The two `sync.Once` of a reader keep others out
as well. -/
inductive Mutex where
  | participant
  | sedp
  | spdp
  | tsn
  | writer (w : Nat)
  | history (w : Nat)
  | reader (r : Nat)
  | liveliness (r : Nat)
  | timeFilter (r : Nat)
  | tracker (r : Nat) (g : GUID)
  | unsubOnce (r : Nat)
  | closeOnce (r : Nat)
  | ownership (topic : Str)
  deriving DecidableEq

/-- `Write` takes all others under the writer's lock. `newPublisherLocked` and `newSubscriberLocked`
hold the participant's and register with SEDP, which matches a new reader under its own. So writer,
participant, SEDP and the rest are taken in this order. -/
@[simp] def rank : Mutex → Nat
  | .unsubOnce _ | .closeOnce _ => 0
  | .writer _ => 1
  | .participant => 2
  | .sedp => 3
  | _ => 4

def ownershipState (topic : Str) : Prog Mutex := lock (.ownership topic) skip

def registerWriterLease (r : Nat) : Prog Mutex := lock (.liveliness r) skip

def touchLiveliness (r : Nat) : Prog Mutex := lock (.liveliness r) skip

def checkLiveliness (r : Nat) : Prog Mutex := lock (.liveliness r) skip

def addSourceGUID (r : Nat) : Prog Mutex := lock (.reader r) skip

def trackerFor (r : Nat) : Prog Mutex := lock (.reader r) skip

def acceptsSource (r : Nat) : Prog Mutex := rlock (.reader r) skip

def deliverToReader (r : Nat) : Prog Mutex := rlock (.reader r) skip

def passesTimeBasedFilter (r : Nat) : Prog Mutex := lock (.timeFilter r) skip

def sendHistory (w : Nat) : Prog Mutex := lock (.history w) skip

def recvTracker (r : Nat) (g : GUID) : Prog Mutex := lock (.tracker r g) skip

def allPeers : Prog Mutex := rlock .spdp skip

def peerByPrefix : Prog Mutex := rlock .spdp skip

def tsnSocketForPCP : Prog Mutex := lock .tsn skip

def matchedReaderLocators : Prog Mutex := rlock .sedp skip

def sendUnicast (lookups : Nat) : Prog Mutex := all (List.replicate lookups allPeers)

def announce (onlyTo : Bool) (sends : List Nat) : Prog Mutex :=
  seq (when (!onlyTo) allPeers) (all (sends.map sendUnicast))

def registerWriter (sends : List Nat) : Prog Mutex := seq (lock .sedp skip) (announce false sends)

def registerReader (r : Nat) (matched : List Bool) (sends : List Nat) : Prog Mutex :=
  seq
    (lock .sedp (all (matched.map fun leased =>
      seq (addSourceGUID r) (when leased (registerWriterLease r)))))
    (announce false sends)

def onNewPeer (endpoints : List (List Nat)) : Prog Mutex :=
  seq (rlock .sedp skip) (all (endpoints.map (announce true)))

def notifyMatched (leased : Bool) (found : Option Nat) : Prog Mutex :=
  seq (lock .participant skip)
    (match found with
    | none => skip
    | some r => seq (addSourceGUID r) (when leased (registerWriterLease r)))

def onRemoteWriter (exclusive : Option Str) (leased : Bool) (matched : List (Option Nat)) :
    Prog Mutex :=
  all
    [lock .sedp (exclusive.elim skip ownershipState),
      all (matched.map (notifyMatched leased)),
      when (!matched.isEmpty) (lock .participant skip)]

def onRemoteReader : Prog Mutex := lock .sedp skip

def onPeerEvicted (exclusive : List Str) : Prog Mutex :=
  seq (lock .sedp (all (exclusive.map ownershipState))) (lock .participant skip)

def storePeer : Prog Mutex := lock .spdp skip

def evictExpired (evicted : List (List Str)) : Prog Mutex :=
  seq (lock .spdp skip) (all (evicted.map onPeerEvicted))

/-- What `newPublisherLocked` finds: the topic if the writer is exclusive, the readers that get its
lease, whether it needs its own socket, and its sends. -/
structure NewWriter where
  exclusive : Option Str
  leases : List Nat
  tsnSocket : Bool
  sends : List Nat

def newPublisherLocked (found : Option NewWriter) : Prog Mutex :=
  lock .participant
    (match found with
    | none => skip
    | some f => all
        [f.exclusive.elim skip ownershipState,
          all (f.leases.map registerWriterLease),
          when f.tsnSocket tsnSocketForPCP,
          registerWriter f.sends])

/-- What `newSubscriberLocked` finds: the reader, how many local writers have a lease, the matching
remote writers, the sends. -/
structure NewReader where
  reader : Nat
  leases : Nat
  matched : List Bool
  sends : List Nat

def newSubscriberLocked (found : Option NewReader) : Prog Mutex :=
  lock .participant
    (match found with
    | none => skip
    | some f => seq (all (List.replicate f.leases (registerWriterLease f.reader)))
        (registerReader f.reader f.matched f.sends))

def unsubscribe (r : Nat) (first : Bool) : Prog Mutex :=
  lock (.unsubOnce r) (when first (lock .participant skip))

def readerClose (r : Nat) (subscribed first : Bool) : Prog Mutex :=
  seq (unsubscribe r subscribed) (lock (.closeOnce r) (when first (lock (.reader r) skip)))

def writerClose (w : Nat) (exclusive : Option Str) : Prog Mutex :=
  lock (.writer w) (exclusive.elim skip ownershipState)

/-- What `dispatchToReaders` finds about a reader. `contested` is its topic if that has an ownership
state. -/
structure Visit where
  reader : Nat
  onTopic : Bool
  accepts : Bool
  samePartition : Bool
  contested : Option Str
  owner : Bool
  separated : Bool
  wanted : Bool

def visit (v : Visit) : Prog Mutex :=
  when v.onTopic (seq (acceptsSource v.reader)
    (when v.accepts (seq (touchLiveliness v.reader)
      (when v.samePartition (seq (v.contested.elim skip ownershipState)
        (when v.owner (seq (when v.separated (passesTimeBasedFilter v.reader))
          (when v.wanted (deliverToReader v.reader)))))))))

def dispatchToReaders (visits : List Visit) : Prog Mutex :=
  seq (lock .participant skip) (all (visits.map visit))

def sendToMatched (sends : List Nat) : Prog Mutex :=
  seq matchedReaderLocators (all (sends.map sendUnicast))

def sendHeartbeatLocked (w : Nat) (sends : Option (List Nat)) : Prog Mutex :=
  seq (sendHistory w) (sends.elim skip sendToMatched)

/-- What `Write` finds with a sealed sample: the readers, the relay ids to look up, the sends, those
of the HEARTBEAT. -/
structure Written where
  reliable : Bool
  visits : List Visit
  relayLookups : Nat
  sends : List Nat
  heartbeat : Option (List Nat)

def write (w : Nat) (found : Option Written) : Prog Mutex :=
  lock (.writer w)
    (match found with
    | none => skip
    | some f => all
        [when f.reliable (sendHistory w),
          dispatchToReaders f.visits,
          matchedReaderLocators,
          all (List.replicate f.relayLookups peerByPrefix),
          all (f.sends.map sendUnicast),
          when f.reliable (sendHeartbeatLocked w f.heartbeat)])

def heartbeatTick (w : Nat) (found : Option (Option (List Nat))) : Prog Mutex :=
  lock (.writer w) (found.elim skip (sendHeartbeatLocked w))

def assertLiveliness (w : Nat) (isOpen : Bool) (sends readers : List Nat) : Prog Mutex :=
  seq (lock (.writer w) skip)
    (when isOpen (all
      [matchedReaderLocators, all (sends.map sendUnicast), lock .participant skip,
        all (readers.map touchLiveliness)]))

/-! ## Packets -/

/-- What a handler finds about a reader: whether it accepts the writer, and the sends of an
ACKNACK. -/
structure Tracked where
  reader : Nat
  accepts : Bool
  asked : Option (List Nat)

def askTracker (g : GUID) (r : Nat) (sends : List Nat) : Prog Mutex :=
  all [trackerFor r, recvTracker r g, recvTracker r g, all (sends.map sendUnicast)]

def notifyReliableReaders (g : GUID) (found : List Tracked) : Prog Mutex :=
  seq (lock .participant skip)
    (all (found.map fun f => seq (acceptsSource f.reader)
      (when f.accepts (f.asked.elim skip (askTracker g f.reader)))))

def handleHeartbeat (g : GUID) (found : List Tracked) : Prog Mutex :=
  seq (lock .participant skip)
    (all (found.map fun f => seq (acceptsSource f.reader)
      (when f.accepts (seq (touchLiveliness f.reader)
        (f.asked.elim skip (askTracker g f.reader))))))

def advanceAcked (w : Nat) : Prog Mutex := lock (.writer w) skip

def retransmit (w : Nat) (found : Option (List Nat)) : Prog Mutex :=
  seq (sendHistory w) (found.elim skip sendToMatched)

/-- What `handleAckNack` finds: the writer, what it sends again, and if it sends a GAP, the sends to
the requester and those to the matched readers. -/
structure Requested where
  writer : Nat
  numbers : List (Option (List Nat))
  gap : Option (List Nat × List Nat)

def sendGap (sends : List Nat × List Nat) : Prog Mutex :=
  seq (all (sends.1.map sendUnicast)) (sendToMatched sends.2)

def handleAckNack (found : Option Requested) : Prog Mutex :=
  seq (lock .participant skip)
    (match found with
    | none => skip
    | some f => all
        [advanceAcked f.writer,
          sendHistory f.writer,
          all (f.numbers.map (retransmit f.writer)),
          f.gap.elim skip sendGap])

def close (found : Option (List (Nat × Option Str))) : Prog Mutex :=
  seq (lock .participant skip)
    (match found with
    | none => skip
    | some writers =>
      seq (all (writers.map fun w => writerClose w.1 w.2)) (lock .tsn skip))

/-- Look whether everything has been acknowledged. What follows is waited for without a lock. -/
def waitDrain (w : Nat) : Prog Mutex := lock (.writer w) skip

def closeWithDrain (drained : List Nat) (found : Option (List (Nat × Option Str))) : Prog Mutex :=
  all [lock .participant skip, all (drained.map waitDrain), close found]

inductive Op where
  | newPublisher (found : Option NewWriter)
  | newSubscriber (found : Option NewReader)
  | write (w : Nat) (found : Option Written)
  | writerClose (w : Nat) (exclusive : Option Str)
  | unsubscribe (r : Nat) (first : Bool)
  | readerClose (r : Nat) (subscribed first : Bool)
  | onRemoteWriter (exclusive : Option Str) (leased : Bool) (matched : List (Option Nat))
  | onRemoteReader
  | onNewPeer (endpoints : List (List Nat))
  | onPeerEvicted (exclusive : List Str)
  | dispatchToReaders (visits : List Visit)
  | notifyReliableReaders (g : GUID) (found : List Tracked)
  | handleHeartbeat (g : GUID) (found : List Tracked)
  | handleAckNack (found : Option Requested)
  | close (found : Option (List (Nat × Option Str)))
  | closeWithDrain (drained : List Nat) (found : Option (List (Nat × Option Str)))
  | storePeer
  | evictExpired (evicted : List (List Str))
  | heartbeatTick (w : Nat) (found : Option (Option (List Nat)))
  | assertLiveliness (w : Nat) (isOpen : Bool) (sends readers : List Nat)
  | checkLiveliness (r : Nat)

def Op.locks : Op → Prog Mutex
  | newPublisher found => newPublisherLocked found
  | newSubscriber found => newSubscriberLocked found
  | write w found => Locks.write w found
  | writerClose w exclusive => Locks.writerClose w exclusive
  | unsubscribe r first => Locks.unsubscribe r first
  | readerClose r subscribed first => Locks.readerClose r subscribed first
  | onRemoteWriter exclusive leased matched => Locks.onRemoteWriter exclusive leased matched
  | onRemoteReader => Locks.onRemoteReader
  | onNewPeer endpoints => Locks.onNewPeer endpoints
  | onPeerEvicted exclusive => Locks.onPeerEvicted exclusive
  | dispatchToReaders visits => Locks.dispatchToReaders visits
  | notifyReliableReaders g found => Locks.notifyReliableReaders g found
  | handleHeartbeat g found => Locks.handleHeartbeat g found
  | handleAckNack found => Locks.handleAckNack found
  | close found => Locks.close found
  | closeWithDrain drained found => Locks.closeWithDrain drained found
  | storePeer => Locks.storePeer
  | evictExpired evicted => Locks.evictExpired evicted
  | heartbeatTick w found => Locks.heartbeatTick w found
  | assertLiveliness w isOpen sends readers => Locks.assertLiveliness w isOpen sends readers
  | checkLiveliness r => Locks.checkLiveliness r

def start (goroutines : List (List Op)) : List (Thread Mutex) :=
  goroutines.map fun ops => Thread.start (all (ops.map Op.locks))

/-! ## The order is kept -/

section Climbs

variable {b : Nat}

theorem climbs_ownershipState (hb : b ≤ 4) (topic : Str) :
    (ownershipState topic).Climbs rank b := by
  simpa [ownershipState] using hb

theorem climbs_elim {α : Type} {o : Option α} {f : α → Prog Mutex}
    (h : ∀ x, (f x).Climbs rank b) : (o.elim skip f).Climbs rank b := by
  cases o with
  | none => trivial
  | some x => exact h x

theorem climbs_sendUnicast (hb : b ≤ 4) (lookups : Nat) : (sendUnicast lookups).Climbs rank b := by
  simp [sendUnicast, allPeers, hb]

theorem climbs_announce (hb : b ≤ 4) (onlyTo : Bool) (sends : List Nat) :
    (announce onlyTo sends).Climbs rank b := by
  simp [announce, climbs_sendUnicast hb, allPeers, hb]

theorem climbs_visit (hb : b ≤ 4) (v : Visit) : (visit v).Climbs rank b := by
  have helim : (v.contested.elim skip ownershipState).Climbs rank b :=
    climbs_elim fun topic => climbs_ownershipState hb topic
  simp [visit, acceptsSource, touchLiveliness, passesTimeBasedFilter, deliverToReader, hb, helim]

theorem climbs_dispatchToReaders (hb : b ≤ 2) (visits : List Visit) :
    (dispatchToReaders visits).Climbs rank b := by
  have hvisit : ∀ v, (visit v).Climbs rank b := climbs_visit (by omega)
  simp [dispatchToReaders, hb, hvisit]

theorem climbs_sendToMatched (hb : b ≤ 3) (sends : List Nat) :
    (sendToMatched sends).Climbs rank b := by
  have hsend : ∀ n, (sendUnicast n).Climbs rank b := climbs_sendUnicast (by omega)
  simp [sendToMatched, matchedReaderLocators, hb, hsend]

theorem climbs_sendHeartbeatLocked (hb : b ≤ 3) (w : Nat) (sends : Option (List Nat)) :
    (sendHeartbeatLocked w sends).Climbs rank b := by
  have helim : (sends.elim skip sendToMatched).Climbs rank b :=
    climbs_elim (climbs_sendToMatched hb)
  simp only [sendHeartbeatLocked, sendHistory, climbs_seq, climbs_lock, climbs_skip, and_true,
    helim, rank]
  omega

theorem climbs_write (w : Nat) (found : Option Written) : (write w found).Climbs rank 0 := by
  cases found with
  | none => simp [write]
  | some f =>
    have hdispatch := climbs_dispatchToReaders (b := 2) le_rfl f.visits
    have hheartbeat := climbs_sendHeartbeatLocked (b := 2) (by omega) w f.heartbeat
    have hsend : ∀ n, (sendUnicast n).Climbs rank 2 := climbs_sendUnicast (by omega)
    simp [write, sendHistory, matchedReaderLocators, peerByPrefix, hdispatch, hheartbeat, hsend]

theorem climbs_newPublisherLocked (found : Option NewWriter) :
    (newPublisherLocked found).Climbs rank 0 := by
  cases found with
  | none => simp [newPublisherLocked]
  | some f =>
    have howner : (f.exclusive.elim skip ownershipState).Climbs rank 3 :=
      climbs_elim (climbs_ownershipState (by omega))
    have hannounce := climbs_announce (b := 3) (by omega) false f.sends
    simp [newPublisherLocked, registerWriterLease, tsnSocketForPCP, registerWriter, howner,
      hannounce]

theorem climbs_newSubscriberLocked (found : Option NewReader) :
    (newSubscriberLocked found).Climbs rank 0 := by
  cases found with
  | none => simp [newSubscriberLocked]
  | some f =>
    have hannounce := climbs_announce (b := 3) (by omega) false f.sends
    simp [newSubscriberLocked, registerReader, addSourceGUID, registerWriterLease, hannounce]

theorem climbs_askTracker (g : GUID) (r : Nat) (sends : List Nat) :
    (askTracker g r sends).Climbs rank 0 := by
  have hsend : ∀ n, (sendUnicast n).Climbs rank 0 := climbs_sendUnicast (by omega)
  simp [askTracker, trackerFor, recvTracker, hsend]

theorem climbs_writerClose (w : Nat) (exclusive : Option Str) :
    (writerClose w exclusive).Climbs rank 0 := by
  have howner : (exclusive.elim skip ownershipState).Climbs rank 2 :=
    climbs_elim (climbs_ownershipState (by omega))
  simp [writerClose, howner]

theorem climbs_onPeerEvicted (exclusive : List Str) : (onPeerEvicted exclusive).Climbs rank 0 := by
  simp [onPeerEvicted, ownershipState]

theorem climbs_close (found : Option (List (Nat × Option Str))) : (close found).Climbs rank 0 := by
  cases found with
  | none => simp [close]
  | some writers => simp [close, climbs_writerClose]

open Op

theorem climbs_locks (op : Op) : op.locks.Climbs rank 0 := by
  cases op with
  | newPublisher found => exact climbs_newPublisherLocked found
  | newSubscriber found => exact climbs_newSubscriberLocked found
  | write w found => exact climbs_write w found
  | writerClose w exclusive => exact climbs_writerClose w exclusive
  | unsubscribe r first => simp [locks, unsubscribe]
  | readerClose r subscribed first => simp [locks, readerClose, unsubscribe]
  | onRemoteWriter exclusive leased matched =>
    have howner : (exclusive.elim skip ownershipState).Climbs rank 4 :=
      climbs_elim (climbs_ownershipState le_rfl)
    have hmatched : ∀ found, (notifyMatched leased found).Climbs rank 0 := by
      intro found
      cases found with
      | none => simp [notifyMatched]
      | some r => simp [notifyMatched, addSourceGUID, registerWriterLease]
    simp [locks, onRemoteWriter, howner, hmatched]
  | onRemoteReader => simp [locks, onRemoteReader]
  | onNewPeer endpoints =>
    have hannounce : ∀ sends, (announce true sends).Climbs rank 0 := climbs_announce (by omega) true
    simp [locks, onNewPeer, hannounce]
  | onPeerEvicted exclusive => exact climbs_onPeerEvicted exclusive
  | dispatchToReaders visits => exact climbs_dispatchToReaders (by omega) visits
  | notifyReliableReaders g found =>
    have hask : ∀ f : Tracked, (f.asked.elim skip (askTracker g f.reader)).Climbs rank 0 :=
      fun f => climbs_elim (climbs_askTracker g f.reader)
    simp [locks, notifyReliableReaders, acceptsSource, hask]
  | handleHeartbeat g found =>
    have hask : ∀ f : Tracked, (f.asked.elim skip (askTracker g f.reader)).Climbs rank 0 :=
      fun f => climbs_elim (climbs_askTracker g f.reader)
    simp [locks, handleHeartbeat, acceptsSource, touchLiveliness, hask]
  | handleAckNack found =>
    cases found with
    | none => simp [locks, handleAckNack]
    | some f =>
      have hmatched : ∀ sends, (sendToMatched sends).Climbs rank 0 := climbs_sendToMatched (by omega)
      have hsend : ∀ n, (sendUnicast n).Climbs rank 0 := climbs_sendUnicast (by omega)
      have hretransmit : ∀ n, (retransmit f.writer n).Climbs rank 0 := by
        intro n
        have helim : (n.elim skip sendToMatched).Climbs rank 0 := climbs_elim hmatched
        simp [retransmit, sendHistory, helim]
      have hgap : (f.gap.elim skip sendGap).Climbs rank 0 :=
        climbs_elim fun sends => by simp [sendGap, hsend, hmatched]
      simp [locks, handleAckNack, advanceAcked, sendHistory, hretransmit, hgap]
  | close found => exact climbs_close found
  | closeWithDrain drained found =>
    simp [locks, closeWithDrain, waitDrain, climbs_close]
  | storePeer => simp [locks, storePeer]
  | evictExpired evicted => simp [locks, evictExpired, climbs_onPeerEvicted]
  | heartbeatTick w found =>
    have helim : (found.elim skip (sendHeartbeatLocked w)).Climbs rank 2 :=
      climbs_elim (climbs_sendHeartbeatLocked (by omega) w)
    simp [locks, heartbeatTick, helim]
  | assertLiveliness w isOpen sends readers =>
    have hsend : ∀ n, (sendUnicast n).Climbs rank 0 := climbs_sendUnicast (by omega)
    simp [locks, assertLiveliness, matchedReaderLocators, touchLiveliness, hsend]
  | checkLiveliness r => simp [locks, checkLiveliness]

end Climbs

theorem allOrdered_start (goroutines : List (List Op)) : AllOrdered rank (start goroutines) := by
  intro t ht
  obtain ⟨ops, -, rfl⟩ := List.mem_map.1 ht
  refine ordered_of_climbs ?_
  simp [climbs_locks]

/-- However the operations of any number of goroutines are interleaved, none wait for each other in
a circle, and as long as one has not finished there is one that waits for none. -/
theorem no_circular_wait (goroutines : List (List Op)) (schedule : List Nat) :
    let s := schedule.foldl LockOrder.step (start goroutines)
    ¬ CircularWait s ∧
      ((∃ t ∈ s, t.todo ≠ []) →
        ∃ i t, s[i]? = some t ∧ t.todo ≠ [] ∧ ∀ j, ¬ WaitsFor s i j) := by
  intro s
  have hordered : AllOrdered rank s := ordered_foldl (allOrdered_start goroutines) schedule
  exact ⟨not_circularWait hordered, exists_unblocked hordered⟩

end GoDDS.Locks
