import GoDDS.Rtps.Life

/-!
# The numbers of a writer's samples
-/

namespace GoDDS

open ByteCodec Go Security Option Registry Writer

variable {payload rnd : Bytes} {p : Participant} {t : Turn} {w : Writer}

namespace Participant

/-! ## Writes that fail -/

/-- The write takes no number. -/
def Refused (w : Writer) (payload : Bytes) : Prop :=
  w.closed = true ∨ 0 < w.qos.maxSampleSize ∧ w.qos.maxSampleSize < payload.length
  deriving Decidable

/-- Sealing succeeds, and cutting into fragments does not panic over a size of zero. By then the
write has taken its number and counted itself. -/
def Sendable (p : ParticipantConfig) (w : Writer) (payload rnd : Bytes) : Prop :=
  ∃ wire ∈ sealPayload p rnd payload,
    ((cdrWrapPayload wire).length : Int) > w.fragmentSize →
      UInt16.ofNat w.fragmentSize.toNat ≠ 0
  deriving Decidable

theorem isSome_messages (w : Writer) (own : GuidPrefix) (sn : SequenceNumber) (now : Int)
    (wire : Bytes) : (w.messages own sn now wire).isSome ↔
      (((cdrWrapPayload wire).length : Int) > w.fragmentSize →
        UInt16.ofNat w.fragmentSize.toNat ≠ 0) := by
  have hpos := w.fragmentSize_pos
  simp only [messages, splitIntoFragmentsN, if_neg (not_le.2 hpos)]
  split_ifs with hlong hzero
  · simp [hlong, hzero]
  · simp [hlong, hzero]
  · simp [hlong]

def numbered (p : Participant) (w : Writer) (payload : Bytes) : Participant :=
  (p.countWrite w.topic payload).setWriter { w with seq := w.seq + 1 }

theorem write_of_refused (h : Refused w payload) (rnd : Bytes) (now : Int) :
    ∃ e, p.write w payload rnd now = ⟨p, [], some e⟩ := by
  by_cases hclosed : w.closed
  · exact ⟨_, by rw [write, if_pos hclosed]⟩
  · have hlarge := h.resolve_left hclosed
    exact ⟨_, by rw [write, if_neg hclosed, if_pos hlarge]⟩

theorem write_of_not_refused (h : ¬ Refused w payload) (rnd : Bytes) (now : Int) :
    p.write w payload rnd now = match sealPayload p.config rnd payload with
      | none => ⟨p.numbered w payload, [], some .sealFailed⟩
      | some wire =>
        match w.messages p.guidPrefix (u64ToSN (w.seq + 1)) now wire with
        | none => ⟨p.numbered w payload, [], some .divideByZero⟩
        | some msgs =>
          let published := (p.numbered w payload).publish { w with seq := w.seq + 1 } payload now msgs
          ⟨published.1, published.2, none⟩ := by
  obtain ⟨hclosed, hlarge⟩ := not_or.1 h
  rw [write, if_neg hclosed, if_neg hlarge]
  rfl

theorem write_of_not_sendable (h : ¬ Refused w payload)
    (hsend : ¬ Sendable p.config w payload rnd) (now : Int) :
    ∃ e, p.write w payload rnd now = ⟨p.numbered w payload, [], some e⟩ := by
  have hwrite := write_of_not_refused (p := p) h rnd now
  cases hseal : sealPayload p.config rnd payload with
  | none => exact ⟨.sealFailed, by rw [hwrite, hseal]⟩
  | some wire =>
    cases hmsgs : w.messages p.guidPrefix (u64ToSN (w.seq + 1)) now wire with
    | none => exact ⟨.divideByZero, by rw [hwrite, hseal]; simp only [hmsgs]⟩
    | some msgs =>
      have hsome := (isSome_messages w p.guidPrefix (u64ToSN (w.seq + 1)) now wire).1 (by simp [hmsgs])
      exact absurd ⟨wire, hseal, hsome⟩ hsend

theorem write_of_sendable (h : ¬ Refused w payload)
    (hsend : Sendable p.config w payload rnd) (now : Int) :
    ∃ wire msgs, sealPayload p.config rnd payload = some wire ∧
      w.messages p.guidPrefix (u64ToSN (w.seq + 1)) now wire = some msgs ∧
      p.write w payload rnd now =
        ⟨((p.numbered w payload).publish { w with seq := w.seq + 1 } payload now msgs).1,
          ((p.numbered w payload).publish { w with seq := w.seq + 1 } payload now msgs).2, none⟩ := by
  obtain ⟨wire, hseal, hsome⟩ := hsend
  obtain ⟨msgs, hmsgs⟩ := isSome_iff_exists.1
    ((isSome_messages w p.guidPrefix (u64ToSN (w.seq + 1)) now wire).2 hsome)
  refine ⟨wire, msgs, hseal, hmsgs, ?_⟩
  rw [write_of_not_refused h, mem_def.1 hseal]
  simp only [hmsgs]

theorem error_write_eq_none {now : Int} : (p.write w payload rnd now).error = none ↔
      ¬ Refused w payload ∧ Sendable p.config w payload rnd := by
  by_cases hrefused : Refused w payload
  · obtain ⟨e, he⟩ := write_of_refused (p := p) hrefused rnd now
    simp [he, hrefused]
  by_cases hsend : Sendable p.config w payload rnd
  · obtain ⟨wire, msgs, -, -, hwrite⟩ := write_of_sendable hrefused hsend now
    simp [hwrite, hrefused, hsend]
  · obtain ⟨e, he⟩ := write_of_not_sendable hrefused hsend now
    simp [he, hrefused, hsend]

/-! ## What a turn does to a writer -/

def published (eid : EntityId) (p : Participant) : Turn → Option UInt64
  | .call (.write e payload rnd now) =>
    if e = eid then
      (p.writers.get? e).bind fun w =>
        if (p.write w payload rnd now).error = none then some (w.seq + 1) else none
    else none
  | _ => none

theorem published_eq_none {eid : EntityId}
    (h : ∀ payload rnd now, t ≠ .call (.write eid payload rnd now)) (p : Participant) :
    p.published eid t = none := by
  unfold published
  split
  · next e payload rnd now =>
    refine if_neg fun heid => ?_
    exact h payload rnd now (by rw [heid])
  · rfl

def numbers (eid : EntityId) : Participant → List Turn → List UInt64
  | _, [] => []
  | p, t :: ts => (p.published eid t).toList ++ numbers eid (p.turn t).1 ts

def WastesNumber (eid : EntityId) (p : Participant) : Turn → Prop
  | .call (.write e payload rnd _) =>
    e = eid ∧ ∃ w ∈ p.writers.get? e,
      ¬ Refused w payload ∧ ¬ Sendable p.config w payload rnd
  | _ => False

instance (eid : EntityId) (p : Participant) (t : Turn) : Decidable (p.WastesNumber eid t) := by
  unfold WastesNumber
  split <;> infer_instance

/-- The turn creates a publisher under the id `eid`, which was in use. Ids repeat after 2^24
endpoints. -/
def ReusesId (eid : EntityId) (p : Participant) : Turn → Prop
  | .call (.newPublisher _ _ _ _) => entityIdForWriter (p.entityCounter + 1) = eid
  | _ => False

instance (eid : EntityId) (p : Participant) (t : Turn) : Decidable (p.ReusesId eid t) := by
  unfold ReusesId
  split <;> infer_instance

/-- What a writer sends from: its settings, the number it has come to, the messages it keeps. -/
def record (w : Writer) : WriterConfig × UInt64 × (Fin 256 → Option (UInt64 × Bytes)) :=
  (w.config, w.seq, w.history.ring)

/-- What becomes of `w` in a turn: its record stays, or a write takes the next number and, unless it
then fails, adds its messages. -/
inductive RecordMove (p : Participant) (w : Writer) (t : Turn) (w' : Writer) : Prop
  | same (hrec : record w' = record w) (hnone : p.published w.eid t = none)
      (hwaste : ¬ p.WastesNumber w.eid t)
  | published {payload rnd : Bytes} {now : Int} {wire : Bytes} {msgs : List Bytes}
      (ht : t = .call (.write w.eid payload rnd now))
      (hwire : sealPayload p.config rnd payload = some wire)
      (hmsgs : w.messages p.guidPrefix (u64ToSN (w.seq + 1)) now wire = some msgs)
      (hrec : record w' = record ({ w with seq := w.seq + 1 }.keep msgs))
      (hsome : p.published w.eid t = some (w.seq + 1)) (hwaste : ¬ p.WastesNumber w.eid t)
  | wasted (hrec : record w' = record { w with seq := w.seq + 1 })
      (hnone : p.published w.eid t = none) (hwaste : p.WastesNumber w.eid t)

theorem seq_of_record {w' : Writer} (h : record w' = record w) : w'.seq = w.seq :=
  congrArg (fun r => r.2.1) h

theorem seq_keep (w : Writer) (msgs : List Bytes) : (w.keep msgs).seq = w.seq := by
  unfold keep
  split_ifs <;> rfl

theorem record_announced : record w.announced = record w := by
  unfold announced heartbeat
  split_ifs
  · cases w.history.firstLast <;> rfl
  · rfl

theorem record_advanceAcked (base : UInt64) : record (w.advanceAcked base) = record w := by
  unfold advanceAcked
  split_ifs <;> rfl

theorem record_write (hget : p.writers.get? w.eid = some w) (payload rnd : Bytes) (now : Int) :
    ∃ w', (p.writeBy w.eid payload rnd now).1.writers.get? w.eid = some w' ∧
      RecordMove p w (.call (.write w.eid payload rnd now)) w' := by
  have hpub : p.published w.eid (.call (.write w.eid payload rnd now)) =
      if (p.write w payload rnd now).error = none then some (w.seq + 1) else none := by
    simp [published, hget]
  have hwaste : p.WastesNumber w.eid (.call (.write w.eid payload rnd now)) ↔
      ¬ Refused w payload ∧ ¬ Sendable p.config w payload rnd := by
    simp [WastesNumber, hget]
  have hresult : (p.writeBy w.eid payload rnd now).1 = (p.write w payload rnd now).participant := by
    simp only [writeBy, hget]
  rw [hresult]
  by_cases hrefused : Refused w payload
  · obtain ⟨e, he⟩ := write_of_refused (p := p) hrefused rnd now
    rw [he] at hpub ⊢
    exact ⟨w, hget, .same rfl hpub fun h => (hwaste.1 h).1 hrefused⟩
  by_cases hsend : Sendable p.config w payload rnd
  · obtain ⟨wire, msgs, hwire, hmsgs, hwrite⟩ := write_of_sendable hrefused hsend now
    rw [hwrite] at hpub ⊢
    refine ⟨_, (get?_publish _ _ _ _ _ _).trans (if_pos rfl),
      .published rfl hwire hmsgs (record_announced) hpub fun h => (hwaste.1 h).2 hsend⟩
  · obtain ⟨e, he⟩ := write_of_not_sendable hrefused hsend now
    rw [he] at hpub ⊢
    exact ⟨_, (get?_setWriter _ _ _).trans (if_pos rfl),
      .wasted rfl hpub (hwaste.2 ⟨hrefused, hsend⟩)⟩

def recordOf (eid : EntityId) (p : Participant) :
    Option (WriterConfig × UInt64 × (Fin 256 → Option (UInt64 × Bytes))) :=
  (p.writers.get? eid).map record

section

variable {p q : Participant} {eid : EntityId}

theorem recordOf_congr (h : q.writers = p.writers) : recordOf eid q = recordOf eid p := by
  unfold recordOf
  rw [h]

theorem recordOf_setWriter {v : Writer} (h : v.eid = eid → some (record v) = recordOf eid p) :
    recordOf eid (p.setWriter v) = recordOf eid p := by
  by_cases heid : eid = v.eid
  · rw [← h heid.symm, recordOf, get?_setWriter, if_pos heid, map_some]
  · rw [recordOf, get?_setWriter, if_neg heid, recordOf]

theorem recordOf_of_get? {e : EntityId} {v : Writer} (hget : p.writers.get? e = some v)
    (heid : e = eid) : some (record v) = recordOf eid p := by
  rw [← heid, recordOf, hget, map_some]

theorem writers_unregisterOwnership (w : WriterConfig) :
    (p.unregisterOwnership w).writers = p.writers := by
  unfold unregisterOwnership
  split_ifs <;> rfl

theorem recordOf_closeWriter (p : Participant) (eid e : EntityId) :
    recordOf eid (p.closeWriter e) = recordOf eid p := by
  unfold closeWriter
  cases hget : p.writers.get? e with
  | none => rfl
  | some v =>
    have hveid : v.eid = e := (get?_eq_some.1 hget).2
    dsimp only
    split_ifs
    · rfl
    · refine (recordOf_congr (writers_unregisterOwnership _)).trans (recordOf_setWriter fun hv => ?_)
      exact recordOf_of_get? (v := v) hget (hveid.symm.trans hv)

theorem writers_addWriter (w : WriterConfig) (typeName : Str) (now : Int) :
    (p.addWriter w typeName now).1.writers = (p.setWriter (Writer.new w)).writers := by
  unfold addWriter registerOwnership watchWriter
  split_ifs <;> rfl

variable (p)

theorem recordOf_newPublisher (eid : EntityId) (topic typeName : Str) (qos : QoS)
    (now : Int) :
    recordOf eid (p.newPublisherWithType topic typeName qos now).participant = recordOf eid p ∨
      entityIdForWriter (p.entityCounter + 1) = eid ∧ ∃ w,
        recordOf eid (p.newPublisherWithType topic typeName qos now).participant =
          some (record (Writer.new w)) := by
  unfold newPublisherWithType
  split_ifs
  · exact .inl rfl
  · exact .inl rfl
  · exact .inl rfl
  · rw [recordOf_congr (writers_addWriter _ _ _)]
    by_cases hid : entityIdForWriter (p.entityCounter + 1) = eid
    · refine .inr ⟨hid, p.writerConfig topic qos, ?_⟩
      have heid : eid = (Writer.new (p.writerConfig topic qos)).eid := hid.symm
      rw [recordOf, get?_setWriter, if_pos heid, map_some]
    · exact .inl (recordOf_setWriter fun hv => absurd hv hid)

theorem writers_newSubscriberWithType (topic typeName : Str) (qos : QoS)
    (cfg : SubscriberConfig) (now : Int) :
    (p.newSubscriberWithType topic typeName qos cfg now).participant.writers = p.writers := by
  unfold newSubscriberWithType
  split_ifs
  · rfl
  · cases p.refuseSubscriber topic <;> rfl

theorem writers_newFilteredSubscriber (topic expr : Str) (params : List Str)
    (qos : QoS) (cfg : SubscriberConfig) (now : Int) :
    (p.newFilteredSubscriber topic expr params qos cfg now).participant.writers = p.writers := by
  unfold newFilteredSubscriber
  split_ifs
  · rfl
  · cases p.filterParse expr params with
    | none => rfl
    | some e => cases p.refuseSubscriber topic <;> rfl

variable {p}

theorem record_writerMove {cfg : ParticipantConfig} {w' : Writer} {op : Op}
    (hop : ∀ payload rnd now, op ≠ .write w.eid payload rnd now) (h : WriterMove cfg w op w') :
    record w' = record w := by
  cases h with
  | same h => rw [h]
  | announced h => rw [h, record_announced]
  | numbered payload rnd now h => exact absurd h (hop payload rnd now)
  | published payload rnd now wire msgs h => exact absurd h (hop payload rnd now)
  | acknowledged g an src now hop hw hrel h => rw [h, record_advanceAcked]

variable (p)

theorem recordOf_perform (op : Op)
    (hop : ∀ payload rnd now, op ≠ .write eid payload rnd now) :
    recordOf eid (p.perform op).1 = recordOf eid p := by
  cases hw : p.writers.get? eid with
  | none => rw [recordOf, perform_writer_none hw, recordOf, hw]
  | some w =>
    obtain rfl : w.eid = eid := (get?_eq_some.1 hw).2
    obtain ⟨w', hw', hmove⟩ := perform_writer hw op
    rw [recordOf, hw', recordOf, hw, map_some, map_some, record_writerMove hop hmove]

theorem recordOf_assertLiveliness (eid e : EntityId) (now : Int) :
    recordOf eid (p.assertLiveliness e now).1 = recordOf eid p := by
  unfold assertLiveliness
  cases hget : p.writers.get? e with
  | none => rfl
  | some v =>
    have hveid : v.eid = e := (get?_eq_some.1 hget).2
    dsimp only
    split_ifs
    · rfl
    · refine (recordOf_congr rfl).trans (recordOf_setWriter (v := { v with livelinessSeq :=
        v.livelinessSeq + 1 }) fun hv => ?_)
      exact recordOf_of_get? (v := v) hget (hveid.symm.trans hv)

theorem recordOf_turn
    (hwrite : ∀ payload rnd now, t ≠ .call (.write eid payload rnd now)) :
    recordOf eid (p.turn t).1 = recordOf eid p ∨
      p.ReusesId eid t ∧ ∃ w, recordOf eid (p.turn t).1 = some (record (Writer.new w)) := by
  cases t with
  | call c =>
    cases c with
    | newPublisher topic typeName qos now => exact p.recordOf_newPublisher eid topic typeName qos now
    | newSubscriber topic typeName qos cfg now =>
      exact .inl (recordOf_congr (p.writers_newSubscriberWithType _ _ _ _ _))
    | newFilteredSubscriber topic expr params qos cfg now =>
      exact .inl (recordOf_congr (p.writers_newFilteredSubscriber _ _ _ _ _ _))
    | write e payload rnd now =>
      refine .inl (p.recordOf_perform (.write e payload rnd now) ?_)
      intro payload' rnd' now' hop
      obtain ⟨rfl, -⟩ := Op.write.inj hop
      exact hwrite payload rnd now rfl
    | closeWriter e => exact .inl (p.recordOf_closeWriter eid e)
    | close =>
      refine .inl ?_
      change recordOf eid p.close = _
      unfold close
      split_ifs
      · rfl
      · exact List.foldlRecOn _ _ (motive := fun q => recordOf eid q = recordOf eid p) rfl
          fun q hq e _ => (q.recordOf_closeWriter eid e).trans hq
    | heartbeatTick e =>
      exact .inl (p.recordOf_perform (.heartbeatTick e) fun _ _ _ hop => by cases hop)
    | assertLiveliness e now => exact .inl (p.recordOf_assertLiveliness eid e now)
    | checkLiveliness e order now =>
      refine .inl ?_
      change recordOf eid (p.checkLiveliness e order now).1 = _
      unfold checkLiveliness
      cases p.readers.get? e with
      | none => rfl
      | some r =>
        dsimp only
        split_ifs <;> rfl
    | _ => exact .inl rfl
  | act i => exact .inl (p.recordOf_perform (.act i) fun _ _ _ hop => by cases hop)
  | peer proxy now =>
    obtain ⟨m, hm⟩ := p.discoverPeer_eq proxy now
    refine .inl (recordOf_congr ?_)
    change (p.discoverPeer proxy now).1.writers = _
    rw [hm]
    rfl
  | evict now =>
    exact .inl (evictExpired_induction (J := fun q => recordOf eid q = recordOf eid p) rfl
      fun q gone hq => hq)
  | _ => exact .inl rfl

end

theorem record_turn (hget : p.writers.get? w.eid = some w) (hid : ¬ p.ReusesId w.eid t) :
    ∃ w', (p.turn t).1.writers.get? w.eid = some w' ∧ RecordMove p w t w' := by
  by_cases hwrite : ∃ payload rnd now, t = .call (.write w.eid payload rnd now)
  · obtain ⟨payload, rnd, now, rfl⟩ := hwrite
    exact record_write hget payload rnd now
  · have hother : ∀ payload rnd now, t ≠ .call (.write w.eid payload rnd now) :=
      fun payload rnd now h => hwrite ⟨payload, rnd, now, h⟩
    have hsame := (p.recordOf_turn hother).resolve_right fun h => hid h.1
    rw [← recordOf_of_get? hget rfl] at hsame
    obtain ⟨w', hw', hrec⟩ := map_eq_some_iff.1 hsame
    refine ⟨w', hw', .same hrec (published_eq_none hother p) ?_⟩
    unfold WastesNumber
    split
    · next e payload rnd now =>
      rintro ⟨rfl, -⟩
      exact hother payload rnd now rfl
    · exact id

/-! ## Failed writes -/

/-- What a failing write leaves alone: the writer, its number and history, the kept samples, the
statistics. -/
structure Untouched (eid : EntityId) (p q : Participant) : Prop where
  writer : q.writers.get? eid = p.writers.get? eid
  lastSample : q.lastSample = p.lastSample
  metrics : q.metrics = p.metrics

def LeavesNoTrace (eid : EntityId) (p : Participant) : Turn → Prop
  | .call (.write e payload rnd now) =>
    e = eid → ∀ w ∈ p.writers.get? e, (p.write w payload rnd now).error ≠ none →
      Untouched eid p (p.write w payload rnd now).participant
  | _ => True

theorem not_untouched_numbered (hget : p.writers.get? w.eid = some w) (payload : Bytes) :
    ¬ Untouched w.eid p (p.numbered w payload) := by
  intro h
  have hnew : (p.numbered w payload).writers.get? w.eid = some { w with seq := w.seq + 1 } :=
    (get?_setWriter _ _ _).trans (if_pos rfl)
  have hsame := Option.some.inj (hnew.symm.trans (h.writer.trans hget))
  have hseq : w.seq + 1 = w.seq := congrArg seq hsame
  exact absurd hseq (by simp)

theorem leavesNoTrace_iff (eid : EntityId) (p : Participant) (t : Turn) :
    p.LeavesNoTrace eid t ↔ ¬ p.WastesNumber eid t := by
  unfold LeavesNoTrace WastesNumber
  split
  · next e payload rnd now =>
    constructor
    · rintro h ⟨rfl, w, hw, hrefused, hsend⟩
      have hweid : w.eid = e := (get?_eq_some.1 hw).2
      subst hweid
      obtain ⟨err, herr⟩ := write_of_not_sendable hrefused hsend now
      have htrace := h rfl w hw (by rw [herr]; simp)
      rw [herr] at htrace
      exact not_untouched_numbered hw payload htrace
    · rintro h rfl w hw herror
      by_cases hrefused : Refused w payload
      · obtain ⟨err, herr⟩ := write_of_refused (p := p) hrefused rnd now
        rw [herr]
        exact ⟨rfl, rfl, rfl⟩
      · by_cases hsend : Sendable p.config w payload rnd
        · exact absurd (error_write_eq_none.2 ⟨hrefused, hsend⟩) herror
        · exact absurd ⟨rfl, w, hw, hrefused, hsend⟩ h
  · exact ⟨fun _ => id, fun _ => trivial⟩

/-- Each number is the successor of the one before it, the first that of `n`. -/
def Contiguous : UInt64 → List UInt64 → Prop
  | _, [] => True
  | n, m :: ms => m = n + 1 ∧ Contiguous m ms

instance decidableContiguous : ∀ n ms, Decidable (Contiguous n ms)
  | _, [] => isTrue trivial
  | n, m :: ms => @instDecidableAnd (m = n + 1) (Contiguous m ms) _ (decidableContiguous m ms)

theorem contiguous_numbers (hget : p.writers.get? w.eid = some w) {ts : List Turn}
    {past : List Turn} (hid : Run.Along (fun _ q t => ¬ q.ReusesId w.eid t) turn past p ts)
    (hwaste : Run.Along (fun _ q t => ¬ q.WastesNumber w.eid t) turn past p ts) :
    Contiguous w.seq (numbers w.eid p ts) := by
  induction ts generalizing p w past with
  | nil => trivial
  | cons t ts ih =>
    obtain ⟨w', hw', hmove⟩ := record_turn hget hid.1
    have hweid : w'.eid = w.eid := (get?_eq_some.1 hw').2
    have hrest : Contiguous w'.seq (numbers w.eid (p.turn t).1 ts) := by
      rw [← hweid] at hw' hid hwaste ⊢
      exact ih hw' hid.2 hwaste.2
    unfold numbers
    cases hmove with
    | same hrec hnone _ =>
      rw [hnone, ← seq_of_record hrec]
      exact hrest
    | published _ _ _ hrec hsome _ =>
      rw [hsome]
      rw [seq_of_record hrec, seq_keep] at hrest
      exact ⟨rfl, hrest⟩
    | wasted _ _ hw => exact absurd hw hwaste.1

/-- In a run, every write of a writer that fails leaves no trace, and the samples it publishes are
numbered without gaps, exactly if none of its writes fails after the number was taken. -/
theorem failed_writes_iff (p : Participant) (w : Writer) (hget : p.writers.get? w.eid = some w)
    (ts : List Turn) (hid : Run.Along (fun _ q t => ¬ q.ReusesId w.eid t) turn [] p ts) :
    Run.Along (fun _ q t => q.LeavesNoTrace w.eid t) turn [] p ts ∧
        Contiguous w.seq (numbers w.eid p ts) ↔
      Run.Along (fun _ q t => ¬ q.WastesNumber w.eid t) turn [] p ts := by
  have htrace : Run.Along (fun _ q t => q.LeavesNoTrace w.eid t) turn [] p ts ↔
      Run.Along (fun _ q t => ¬ q.WastesNumber w.eid t) turn [] p ts :=
    Run.along_congr (fun _ q t => leavesNoTrace_iff w.eid q t) [] p ts
  rw [htrace]
  exact ⟨fun h => h.1, fun h => ⟨h, contiguous_numbers hget hid h⟩⟩

/-- A plugin that needs twelve random bytes to seal and fails when the source of randomness does. -/
def noncePlugin : SecurityPlugin :=
  { sealPayload := fun rnd plaintext => if rnd.length < 12 then none else some (rnd ++ plaintext)
    openPayload := fun ciphertext => some (ciphertext.drop 12) }

def smallWriter : Writer :=
  Writer.new ⟨str "t", entityIdForWriter 1,
    { defaultQoS with reliability := .reliable, maxSampleSize := 4 }, none, false⟩

def sealing (own : GuidPrefix) : Participant :=
  { Participant.new { ParticipantConfig.ofDefaults own with security := some noncePlugin } none with
    writers := Registry.empty.insert smallWriter }

theorem failed_writes_refused :
    let p := sealing (FixedBytes.copy 12 [1])
    let eid := smallWriter.eid
    let nonce := List.replicate 12 7
    let ts : List Turn := [.call (.write eid [1] nonce 0),
      .call (.write eid [1, 2, 3, 4, 5] nonce 1), .call (.write eid [2] nonce 2),
      .call (.closeWriter eid), .call (.write eid [3] nonce 3)]
    numbers eid p ts = [1, 2] ∧
      Run.Along (fun _ q t => q.LeavesNoTrace eid t) turn [] p ts ∧
        Contiguous smallWriter.seq (numbers eid p ts) := by
  refine ⟨by decide +kernel, ?_⟩
  exact (failed_writes_iff _ smallWriter rfl _ (by decide +kernel)).2 (by decide +kernel)

/-- The second of three writes finds no randomness: it returns an error, but the number 2 is gone
and the write has been counted. -/
theorem failed_write_takes_number :
    let p := sealing (FixedBytes.copy 12 [1])
    let eid := smallWriter.eid
    let nonce := List.replicate 12 7
    let ts : List Turn := [.call (.write eid [1] nonce 0), .call (.write eid [2] [] 1),
      .call (.write eid [3] nonce 2)]
    (p.write smallWriter [2] [] 1).error = some .sealFailed ∧
      numbers eid p ts = [1, 3] ∧ ¬ Contiguous 0 (numbers eid p ts) ∧
      (Run.run turn p ts).1.metrics.total.writes = 3 := by decide +kernel

end Participant

end GoDDS
