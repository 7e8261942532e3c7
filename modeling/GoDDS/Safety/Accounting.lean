import GoDDS.Safety.Subscriber

/-!
# The accounts of a subscriber

`process` counts an accepted frame before it tries to put the payload on the channel, and drops the
payload if there is no room.
-/

namespace GoDDS.Safety

open ByteCodec Go

def samples (os : List Output) : List Sample :=
  os.filterMap fun o =>
    match o with
    | .sample x => some x
    | .error _ => none

theorem samples_append (os os' : List Output) : samples (os ++ os') = samples os ++ samples os' :=
  List.filterMap_append

namespace E2ESubscriber

def refusals (s : E2ESubscriber) : UInt64 × UInt64 × UInt64 :=
  (s.m.headerTooShort, s.m.crcFailures, s.m.staleSamples)

def Accounted (s : E2ESubscriber) (raw : Sample) (s' : E2ESubscriber) (os : List Output) : Prop :=
  (samples os).map Sample.payload = [raw.payload.drop headerSize] ∧
      s'.m.validSamples = s.m.validSamples + 1 ∧ s'.refusals = s.refusals ∨
    samples os = [] ∧ ∃ kind, kind ≠ .sequenceGap ∧ s'.m = s.m.count kind

def Accounts (s : E2ESubscriber) : Input → Prop
  | .process raw now send =>
    s.Accounted raw (s.process raw now send).1 (s.process raw now send).2
  | .consume _ => True

def HasRoom (s : E2ESubscriber) : Input → Prop
  | .process raw now send =>
    match verdict s.cfg raw.payload now with
    | .rejected _ => True
    | .accepted _ _ => s.Takes send
  | .consume _ => True

variable {s : E2ESubscriber} {raw : Sample} {now : Int} {send : Bool}

theorem refused_ne_gap {cfg : E2EConfig} {data : Bytes} {kind : E2EErrorKind}
    (h : verdict cfg data now = .rejected kind) : kind ≠ .sequenceGap := by
  unfold verdict at h
  split_ifs at h <;> rw [← Verdict.rejected.inj h] <;> decide

theorem accepted_payload {cfg : E2EConfig} {data : Bytes} {counter : UInt32} {payload : Bytes}
    (h : verdict cfg data now = .accepted counter payload) : payload = data.drop headerSize := by
  unfold verdict at h
  split_ifs at h
  exact (Verdict.accepted.inj h).2.symm

theorem accounted_rejected {kind : E2EErrorKind}
    (h : verdict s.cfg raw.payload now = .rejected kind) :
    s.Accounted raw (s.process raw now send).1 (s.process raw now send).2 := by
  obtain ⟨counter, message, hprocess⟩ := s.process_rejected h send
  rw [hprocess]
  exact .inr ⟨rfl, kind, refused_ne_gap h, rfl⟩

theorem samples_accept (s : E2ESubscriber) (raw : Sample) (counter : UInt32) (payload : Bytes)
    (send : Bool) : samples (s.accept raw counter payload send).2 =
      if s.Takes send then [stripped raw payload] else [] := by
  rw [accept_outputs, samples_append]
  unfold noteGap report
  split_ifs <;> rfl

theorem accept_counts (s : E2ESubscriber) (raw : Sample) (counter : UInt32) (payload : Bytes)
    (send : Bool) : (s.accept raw counter payload send).1.m.validSamples = s.m.validSamples + 1 ∧
      (s.accept raw counter payload send).1.refusals = s.refusals := by
  unfold accept noteGap report
  simp only [forward_eq]
  split_ifs <;> exact ⟨rfl, rfl⟩

theorem accounted_accepted {counter : UInt32} {payload : Bytes}
    (h : verdict s.cfg raw.payload now = .accepted counter payload) :
    s.Accounted raw (s.process raw now send).1 (s.process raw now send).2 ↔ s.Takes send := by
  rw [s.process_accepted h send]
  obtain ⟨hvalid, hrefusals⟩ := s.accept_counts raw counter payload send
  have hsamples := s.samples_accept raw counter payload send
  by_cases htakes : s.Takes send
  · rw [if_pos htakes] at hsamples
    refine iff_of_true (.inl ⟨?_, hvalid, hrefusals⟩) htakes
    rw [hsamples, ← accepted_payload h]
    rfl
  · rw [if_neg htakes] at hsamples
    refine iff_of_false ?_ htakes
    rintro (⟨hput, -⟩ | ⟨-, kind, -, hm⟩)
    · simp [hsamples] at hput
    · -- a refusal does not touch the count of valid frames
      have hsame : (s.m.count kind).validSamples = s.m.validSamples := by cases kind <;> rfl
      rw [hm, hsame] at hvalid
      exact absurd hvalid (by simp)

theorem accounts_iff (s : E2ESubscriber) (i : Input) : s.Accounts i ↔ s.HasRoom i := by
  cases i with
  | consume c => exact Iff.rfl
  | process raw now send =>
    unfold Accounts HasRoom
    dsimp only
    cases h : verdict s.cfg raw.payload now with
    | rejected kind => exact iff_of_true (accounted_rejected h) trivial
    | accepted counter payload => exact accounted_accepted h

theorem valid_step {i : Input} (h : s.Accounts i) {n : Nat}
    (hn : s.m.validSamples = UInt64.ofNat n) :
    (s.step i).1.m.validSamples = UInt64.ofNat (n + (samples (s.step i).2).length) := by
  cases i with
  | consume c =>
    cases c <;> exact hn
  | process raw now send =>
    rcases h with ⟨hput, hvalid, -⟩ | ⟨hput, kind, -, hm⟩
    · have hlen : (samples (s.process raw now send).2).length = 1 := by
        rw [← List.length_map Sample.payload, hput]
        rfl
      simp only [step, hvalid, hn, hlen, UInt64.ofNat_add]
      rfl
    · have hsame : (s.m.count kind).validSamples = s.m.validSamples := by cases kind <;> rfl
      simp only [step, hm, hput, hsame, hn]
      rfl

/-- In a run every frame is accounted for, and `ValidSamples` is the number of samples put on `C()`,
exactly if there is room for every frame that is accepted. -/
theorem frames_accounted_iff (cfg : E2EConfig) (is : List Input) :
    (Run.Along (fun _ s i => s.Accounts i) step [] (new cfg) is ∧
      (Run.run step (new cfg) is).1.m.validSamples =
        UInt64.ofNat (samples (Run.run step (new cfg) is).2).length) ↔
    Run.Along (fun _ s i => s.HasRoom i) step [] (new cfg) is := by
  have hiff : Run.Along _ step [] (new cfg) is ↔ Run.Along _ step [] (new cfg) is :=
    Run.along_congr (fun _ s i => accounts_iff s i) [] (new cfg) is
  refine ⟨fun h => hiff.1 h.1, fun h => ⟨hiff.2 h, ?_⟩⟩
  refine Run.run_induction (J := fun s _ os => s.m.validSamples = UInt64.ofNat (samples os).length)
    (fun s i _ os hacc hn => ?_) rfl (hiff.2 h)
  rw [samples_append, List.length_append]
  exact valid_step hacc hn

def numbered (n : Nat) : Sample :=
  { topic := [], payload := makeFrame { dataID := 1, sourceID := 1 } (UInt32.ofNat n) 0 [0x41],
    timestamp := 0, sequenceNumber := UInt64.ofNat n, writerGUID := zeroGUID }

/-- Of 65 frames that nobody reads the last is counted as valid, but it is not on the channel. -/
theorem last_of_65_lost :
    let frames := (List.range 65).map fun n => Input.process (numbered (n + 1)) 0 true
    let run := Run.run step (new { dataID := 1, sourceID := 1 }) frames
    run.1.m = ⟨0, 0, 0, 0, 65⟩ ∧ (samples run.2).length = 64 ∧ run.1.errCh.items = [] := by
  decide +kernel

end E2ESubscriber

end GoDDS.Safety
