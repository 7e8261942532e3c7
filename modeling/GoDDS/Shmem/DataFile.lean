import GoDDS.Lib.File
import GoDDS.Lib.Parties
import GoDDS.Shmem.Names

/-!
# The data file of a topic

A step is one system call.
-/

namespace GoDDS.Shmem

open ByteCodec Go Option Run
open List hiding lt_irrefl

/-! ## The goroutines -/

/-- A `Write` of `shmem.go` starts a goroutine (`shmPublish`) that truncates the topic's file,
writes length and payload and sends a datagram to the topic's socket, whose listener reads the file
(`readData`). -/
inductive Stage where
  | started
  | created
  | lengthWritten
  | written
  | notified
  deriving DecidableEq

/-- A `shmPublish`: the publisher it is for, what `Write` was called with, and what is in that slice
now. -/
structure Job where
  publisher : Nat
  payload : Bytes
  buffer : Bytes
  length_eq : buffer.length = payload.length
  stage : Stage

namespace Job

def start (publisher : Nat) (payload : Bytes) : Job := ⟨publisher, payload, payload, rfl, .started⟩

def Writing (job : Job) : Prop := job.stage = .created ∨ job.stage = .lengthWritten
  deriving Decidable

end Job

/-- How far a `readData` is: the bytes of the length, or of the payload, read so far. -/
inductive Reading where
  | waiting
  | length (got : Bytes)
  | data (length : Nat) (got : Bytes)
  deriving DecidableEq

/-- A listener: the datagrams in its socket, what its loop does, and whether it is closed. -/
structure Listener where
  notifications : Nat
  reading : Reading
  closed : Bool

/-- The file, the listener whose socket is at the path, and the goroutines. -/
structure DataFile where
  content : Option Bytes
  socket : Option Nat
  jobs : List Job
  listeners : List Listener

inductive Act where
  | listen
  | close (l : Nat)
  | write (publisher : Nat) (payload : Bytes)
  | reuse (i : Nat) (bytes : Bytes)
  | publish (i : Nat)
  | receive (l : Nat)
  | read (l : Nat)

structure Returned where
  listener : Nat
  payload : Bytes

namespace DataFile

def new : DataFile := ⟨none, none, [], []⟩

def setJob (s : DataFile) (i : Nat) (job : Job) : DataFile := { s with jobs := s.jobs.set i job }

def setListener (s : DataFile) (l : Nat) (x : Listener) : DataFile :=
  { s with listeners := s.listeners.set l x }

def listen (s : DataFile) : DataFile :=
  { s with listeners := s.listeners ++ [⟨0, .waiting, false⟩], socket := some s.listeners.length }

/-- `close` of a listener. It removes whatever socket is at the path. -/
def close (s : DataFile) (l : Nat) : DataFile :=
  match s.listeners[l]? with
  | none => s
  | some x =>
    if x.closed then s else { s.setListener l { x with closed := true } with socket := none }

def write (s : DataFile) (publisher : Nat) (payload : Bytes) : DataFile :=
  { s with jobs := s.jobs ++ [.start publisher payload] }

/-- The caller puts other bytes into the slice it passed to `Write`. -/
def reuse (s : DataFile) (i : Nat) (bytes : Bytes) : DataFile :=
  match s.jobs[i]? with
  | none => s
  | some job =>
    if h : bytes.length = job.payload.length then
      s.setJob i { job with buffer := bytes, length_eq := h }
    else s

def notify (s : DataFile) : DataFile :=
  match s.socket with
  | none => s
  | some l =>
    match s.listeners[l]? with
    | none => s
    | some x => s.setListener l { x with notifications := x.notifications + 1 }

def publish (s : DataFile) (i : Nat) : DataFile :=
  match s.jobs[i]? with
  | none => s
  | some job =>
    match job.stage with
    | .started => { s.setJob i { job with stage := .created } with content := some [] }
    | .created =>
      { s.setJob i { job with stage := .lengthWritten } with
        content := s.content.map fun file =>
          File.writeAt 0 file 0 (u32 (UInt32.ofNat job.buffer.length)) }
    | .lengthWritten =>
      { s.setJob i { job with stage := .written } with
        content := s.content.map fun file => File.writeAt 0 file 4 job.buffer }
    | .written => (s.setJob i { job with stage := .notified }).notify
    | .notified => s

def receive (s : DataFile) (l : Nat) : DataFile :=
  match s.listeners[l]? with
  | none => s
  | some x =>
    if x.closed ∨ x.reading ≠ .waiting ∨ x.notifications = 0 then s
    else
      s.setListener l
        { x with
          notifications := x.notifications - 1
          reading := if s.content.isSome then .length [] else .waiting }

def afterLength (got : Bytes) : Reading × Option Bytes :=
  let length := (u32At got 0).toNat
  if maxPayload < length then (.waiting, none)
  else if length = 0 then (.waiting, some [])
  else (.data length [], none)

/-- One `Read` of `readData`; `io.ReadFull` goes on until it has all or the file ends. -/
def readStep (file : Bytes) : Reading → Reading × Option Bytes
  | .waiting => (.waiting, none)
  | .length got =>
    let chunk := File.readAt file got.length (4 - got.length)
    if chunk = [] then (.waiting, none)
    else if (got ++ chunk).length < 4 then (.length (got ++ chunk), none)
    else afterLength (got ++ chunk)
  | .data length got =>
    let chunk := File.readAt file (4 + got.length) (length - got.length)
    if chunk = [] then (.waiting, none)
    else if (got ++ chunk).length < length then (.data length (got ++ chunk), none)
    else (.waiting, some (got ++ chunk))

def read (s : DataFile) (l : Nat) : DataFile × List Returned :=
  match s.listeners[l]? with
  | none => (s, [])
  | some x =>
    let next := readStep (s.content.getD []) x.reading
    (s.setListener l { x with reading := next.1 }, next.2.toList.map (⟨l, ·⟩))

def step (s : DataFile) : Act → DataFile × List Returned
  | .listen => (s.listen, [])
  | .close l => (s.close l, [])
  | .write publisher payload => (s.write publisher payload, [])
  | .reuse i bytes => (s.reuse i bytes, [])
  | .publish i => (s.publish i, [])
  | .receive l => (s.receive l, [])
  | .read l => s.read l

def writes (s : DataFile) : List (Nat × Bytes) := s.jobs.map fun job => (job.publisher, job.payload)

def returnedTo (l : Nat) (os : List Returned) : List Bytes :=
  (os.filter fun o => o.listener = l).map Returned.payload

/-- Each payload is that of a `Write`, and those of one publisher are in the order of its
`Write`s. -/
def Intact (writes : List (Nat × Bytes)) (payloads : List Bytes) : Prop :=
  ∃ js : List Nat,
    List.Forall₂ (fun j payload => (writes[j]?).map Prod.snd = some payload) js payloads ∧
    js.Pairwise fun j k => (writes[j]?).map Prod.fst = (writes[k]?).map Prod.fst → j ≤ k

/-- The length as it is written is that of the payload, or is refused by the reader. -/
def Fits (payload : Bytes) : Prop :=
  payload.length < 2 ^ 32 ∨ maxPayload < payload.length % 2 ^ 32
  deriving Decidable

def Settled (s : DataFile) : Prop := ∀ job ∈ s.jobs, ¬ job.Writing
  deriving Decidable

/-- None of the publisher's `Write`s after number `i` has begun to publish. -/
def NoneLater (s : DataFile) (i : Nat) (job : Job) : Prop :=
  ∀ later ∈ s.jobs.drop (i + 1), later.publisher = job.publisher → later.stage = .started
  deriving Decidable

def Exclusive (s : DataFile) : Act → Prop
  | .write _ payload => Fits payload
  | .reuse i _ => ∀ job ∈ s.jobs[i]?, job.stage = .written ∨ job.stage = .notified
  | .publish i => ∀ job ∈ s.jobs[i]?, job.stage = .started →
      s.Settled ∧ (∀ x ∈ s.listeners, x.reading = .waiting) ∧ s.NoneLater i job
  | .receive _ => s.Settled
  | _ => True

instance (s : DataFile) (a : Act) : Decidable (s.Exclusive a) := by
  unfold Exclusive
  split <;> infer_instance

end DataFile

/-! ## What is in the file -/

def Job.image (job : Job) : Bytes :=
  match job.stage with
  | .started | .created => []
  | .lengthWritten => u32 (UInt32.ofNat job.payload.length)
  | .written | .notified => framed job.payload

def Job.Sound (job : Job) : Prop :=
  DataFile.Fits job.payload ∧
    (job.stage = .written ∨ job.stage = .notified ∨ job.buffer = job.payload)

structure Job.Like (job job' : Job) : Prop where
  publisher_eq : job'.publisher = job.publisher
  payload_eq : job'.payload = job.payload
  image_eq : job'.image = job.image
  writing_iff : job'.Writing ↔ job.Writing
  started_iff : job'.stage = .started ↔ job.stage = .started

theorem Job.Like.refl (job : Job) : job.Like job := ⟨rfl, rfl, rfl, .rfl, .rfl⟩

/-- How far a `readData` can be that finds a whole frame. -/
def Reading.From (payload : Bytes) (r : Reading) : Prop :=
  r = .waiting ∨ r = .length [] ∨ r = .data payload.length []

variable {job' : Job} {os : List Returned} {x : Listener} {j : Nat}

namespace DataFile

variable {s s' : DataFile} {i l : Nat} {job : Job}

theorem readStep_framed {payload : Bytes} {r : Reading} (hfits : Fits payload)
    (hr : r.From payload) : (readStep (framed payload) r).1.From payload ∧
      ∀ p, (readStep (framed payload) r).2 = some p → p = payload := by
  rcases hr with rfl | rfl | rfl
  · exact ⟨.inl rfl, fun p h => by cases h⟩
  · have hchunk : File.readAt (framed payload) 0 4 = u32 (UInt32.ofNat payload.length) :=
      File.readAt_left _ _
    have hne : u32 (UInt32.ofNat payload.length) ≠ [] :=
      ne_nil_of_length_pos (by rw [length_u32]; decide)
    unfold readStep afterLength
    simp only [length_nil, Nat.sub_zero, hchunk, hne, if_false, nil_append, length_u32,
      lt_irrefl, u32At_here_end, UInt32.toNat_ofNat']
    split_ifs with hlarge hzero
    · exact ⟨.inl rfl, fun p h => by cases h⟩
    · have hlt := hfits.resolve_right hlarge
      rw [Nat.mod_eq_of_lt hlt, length_eq_zero_iff] at hzero
      exact ⟨.inl rfl, fun p h => by rw [hzero, ← Option.some.inj h]⟩
    · have hlt := hfits.resolve_right hlarge
      rw [Nat.mod_eq_of_lt hlt]
      exact ⟨.inr (.inr rfl), fun p h => by cases h⟩
  · have hchunk : File.readAt (framed payload) 4 payload.length = payload :=
      File.readAt_right _ _
    unfold readStep
    simp only [length_nil, Nat.add_zero, Nat.sub_zero, hchunk, nil_append, lt_irrefl, if_false]
    split_ifs with hempty
    · exact ⟨.inl rfl, fun p h => by cases h⟩
    · exact ⟨.inl rfl, fun p h => (Option.some.inj h).symm⟩

/-- The file is what `shmPublish` number `i` has written so far, and those who read it read that. -/
structure Owned (s : DataFile) (i : Nat) (job : Job) : Prop where
  job_eq : s.jobs[i]? = some job
  begun : job.stage ≠ .started
  content_eq : s.content = some job.image
  latest : ∀ (j : Nat) (job' : Job), s.jobs[j]? = some job' → job'.stage ≠ .started →
    job'.publisher = job.publisher → j ≤ i
  alone : ∀ (j : Nat) (job' : Job), s.jobs[j]? = some job' → job'.Writing → j = i
  reading : ∀ x ∈ s.listeners,
    x.reading = .waiting ∨ ¬ job.Writing ∧ x.reading.From job.payload

structure Untouched (s : DataFile) : Prop where
  content_eq : s.content = none
  started : ∀ (j : Nat) (job : Job), s.jobs[j]? = some job → job.stage = .started
  waiting : ∀ x ∈ s.listeners, x.reading = .waiting

structure Orderly (s : DataFile) : Prop where
  sound : ∀ (j : Nat) (job : Job), s.jobs[j]? = some job → job.Sound
  file : s.Untouched ∨ ∃ i job, s.Owned i job

/-! ## Steps that leave the file alone -/

structure Frame (s s' : DataFile) : Prop where
  content_eq : s'.content = s.content
  kept : ∀ (j : Nat) (job : Job), s.jobs[j]? = some job → ∃ job', s'.jobs[j]? = some job' ∧ job.Like job'
  known : ∀ (j : Nat) (job' : Job), s'.jobs[j]? = some job' →
    job'.stage = .started ∨ ∃ job, s.jobs[j]? = some job ∧ job.Like job'
  reading : ∀ x' ∈ s'.listeners, x'.reading = .waiting ∨ ∃ x ∈ s.listeners, x.reading = x'.reading

theorem Owned.frame (h : s.Owned i job) (hf : Frame s s') : ∃ job', s'.Owned i job' := by
  obtain ⟨job', hjob', hlike⟩ := hf.kept i job h.job_eq
  refine ⟨job', hjob', mt hlike.started_iff.1 h.begun, ?_, ?_, ?_, ?_⟩
  · rw [hf.content_eq, h.content_eq, hlike.image_eq]
  · intro j x' hx' hbegun hpub
    rcases hf.known j x' hx' with hstarted | ⟨x, hx, hxlike⟩
    · exact absurd hstarted hbegun
    · refine h.latest j x hx (mt hxlike.started_iff.2 hbegun) ?_
      rw [← hxlike.publisher_eq, hpub, hlike.publisher_eq]
  · intro j x' hx' hwriting
    rcases hf.known j x' hx' with hstarted | ⟨x, hx, hxlike⟩
    · rcases hwriting with h' | h' <;> rw [hstarted] at h' <;> cases h'
    · exact h.alone j x hx (hxlike.writing_iff.1 hwriting)
  · intro x' hx'
    rcases hf.reading x' hx' with hwaiting | ⟨x, hx, heq⟩
    · exact .inl hwaiting
    · rw [← heq, hlike.writing_iff, hlike.payload_eq]
      exact h.reading x hx

theorem Untouched.frame (h : s.Untouched) (hf : Frame s s') : s'.Untouched := by
  refine ⟨hf.content_eq.trans h.content_eq, fun j x' hx' => ?_, fun x' hx' => ?_⟩
  · rcases hf.known j x' hx' with hstarted | ⟨x, hx, hxlike⟩
    · exact hstarted
    · exact hxlike.started_iff.2 (h.started j x hx)
  · rcases hf.reading x' hx' with hwaiting | ⟨x, hx, heq⟩
    · exact hwaiting
    · exact heq ▸ h.waiting x hx

theorem Orderly.frame (h : s.Orderly) (hf : Frame s s')
    (hsound : ∀ (j : Nat) (job : Job), s'.jobs[j]? = some job → job.Sound) : s'.Orderly := by
  refine ⟨hsound, ?_⟩
  rcases h.file with hnone | ⟨i, job, howned⟩
  · exact .inl (hnone.frame hf)
  · exact .inr ⟨i, howned.frame hf⟩

theorem frame_of_jobs_eq (hcontent : s'.content = s.content) (hjobs : s'.jobs = s.jobs)
    (hreading : ∀ x' ∈ s'.listeners, x'.reading = .waiting ∨ ∃ x ∈ s.listeners, x.reading = x'.reading) :
    Frame s s' :=
  ⟨hcontent, fun _ job h => ⟨job, hjobs ▸ h, .refl job⟩,
    fun _ job h => .inr ⟨job, hjobs ▸ h, .refl job⟩, hreading⟩

theorem reading_setListener {x' : Listener} (hx : s.listeners[l]? = some x)
    (hsame : x'.reading = .waiting ∨ x'.reading = x.reading) :
    ∀ y' ∈ (s.setListener l x').listeners,
      y'.reading = .waiting ∨ ∃ y ∈ s.listeners, y.reading = y'.reading := by
  intro y' hy'
  rcases mem_or_eq_of_mem_set hy' with hold | rfl
  · exact .inr ⟨y', hold, rfl⟩
  · exact hsame.imp id fun h => ⟨x, mem_of_getElem? hx, h.symm⟩

theorem getElem?_setJob (hjob : s.jobs[i]? = some job) (job' : Job) (j : Nat) :
    (s.setJob i job').jobs[j]? = if i = j then some job' else s.jobs[j]? := by
  have hlt := (List.getElem?_eq_some_iff.1 hjob).1
  simp [setJob, getElem?_set, hlt]

theorem setJob_cases (hjob : s.jobs[i]? = some job) {x : Job}
    (h : (s.setJob i job').jobs[j]? = some x) : j = i ∧ x = job' ∨ j ≠ i ∧ s.jobs[j]? = some x :=
  (Parties.set_iff hjob).1 h

theorem exists_setJob {R : Job → Job → Prop} (hrefl : ∀ x, R x x) (hjob : s.jobs[i]? = some job)
    (hR : R job job') {x : Job} (hx : s.jobs[j]? = some x) :
    ∃ x', (s.setJob i job').jobs[j]? = some x' ∧ R x x' := by
  rw [getElem?_setJob hjob]
  by_cases hij : i = j
  · subst hij
    rw [if_pos rfl]
    exact ⟨job', rfl, Option.some.inj (hjob.symm.trans hx) ▸ hR⟩
  · rw [if_neg hij]
    exact ⟨x, hx, hrefl x⟩

theorem frame_setJob (hjob : s.jobs[i]? = some job) (hlike : job.Like job') :
    Frame s (s.setJob i job') := by
  refine ⟨rfl, fun j x hx => exists_setJob Job.Like.refl hjob hlike hx, fun j x' hx' => ?_,
    fun x hx => .inr ⟨x, hx, rfl⟩⟩
  rcases setJob_cases hjob hx' with ⟨rfl, rfl⟩ | ⟨-, hx'⟩
  · exact .inr ⟨job, hjob, hlike⟩
  · exact .inr ⟨x', hx', .refl x'⟩

theorem sound_setJob (h : s.Orderly) (hjob : s.jobs[i]? = some job) (hjob' : job'.Sound) :
    ∀ (j : Nat) (x : Job), (s.setJob i job').jobs[j]? = some x → x.Sound := by
  intro j x hx
  rcases setJob_cases hjob hx with ⟨-, rfl⟩ | ⟨-, hx⟩
  · exact hjob'
  · exact h.sound j x hx

theorem orderly_listen (h : s.Orderly) : s.listen.Orderly := by
  refine h.frame (frame_of_jobs_eq rfl rfl fun x' hx' => ?_) h.sound
  rcases mem_append.1 hx' with hold | hnew
  · exact .inr ⟨x', hold, rfl⟩
  · exact .inl (mem_singleton.1 hnew ▸ rfl)

theorem orderly_close (h : s.Orderly) (l : Nat) : (s.close l).Orderly := by
  unfold close
  cases hx : s.listeners[l]? with
  | none => exact h
  | some x =>
    dsimp only
    split_ifs
    · exact h
    · exact h.frame (frame_of_jobs_eq rfl rfl (reading_setListener hx (.inr rfl))) h.sound

theorem orderly_write (h : s.Orderly) (publisher : Nat) {payload : Bytes} (hfits : Fits payload) :
    (s.write publisher payload).Orderly := by
  have hnew (j : Nat) (x : Job) (hx : (s.write publisher payload).jobs[j]? = some x) :
      s.jobs[j]? = some x ∨ x = .start publisher payload := by
    rw [write, getElem?_append] at hx
    by_cases hlt : j < s.jobs.length
    · rw [if_pos hlt] at hx
      exact .inl hx
    · rw [if_neg hlt] at hx
      exact .inr (mem_singleton.1 (mem_of_getElem? hx))
  refine h.frame ⟨rfl, fun j x hx => ⟨x, ?_, .refl x⟩, fun j x hx => ?_,
    fun x hx => .inr ⟨x, hx, rfl⟩⟩ fun j x hx => ?_
  · rw [write, getElem?_append_left (List.getElem?_eq_some_iff.1 hx).1, hx]
  · rcases hnew j x hx with hold | rfl
    · exact .inr ⟨x, hold, .refl x⟩
    · exact .inl rfl
  · rcases hnew j x hx with hold | rfl
    · exact h.sound j x hold
    · exact ⟨hfits, .inr (.inr rfl)⟩

theorem orderly_reuse (h : s.Orderly) {bytes : Bytes} (hok : s.Exclusive (.reuse i bytes)) :
    (s.reuse i bytes).Orderly := by
  unfold reuse
  cases hjob : s.jobs[i]? with
  | none => exact h
  | some job =>
    dsimp only
    split_ifs
    · have hwritten := hok job hjob
      refine h.frame (frame_setJob hjob ⟨rfl, rfl, rfl, .rfl, .rfl⟩) (sound_setJob h hjob ?_)
      exact ⟨(h.sound i job hjob).1, hwritten.imp id .inl⟩
    · exact h

theorem frame_notify : Frame s s.notify := by
  unfold notify
  cases s.socket with
  | none => exact frame_of_jobs_eq rfl rfl fun x hx => .inr ⟨x, hx, rfl⟩
  | some l =>
    cases hx : s.listeners[l]? with
    | none =>
      simp only [hx]
      exact frame_of_jobs_eq rfl rfl fun x hx => .inr ⟨x, hx, rfl⟩
    | some x =>
      simp only [hx]
      exact frame_of_jobs_eq rfl rfl (reading_setListener hx (.inr rfl))

theorem jobs_notify : s.notify.jobs = s.jobs := by
  unfold notify
  split
  · rfl
  · split <;> rfl

theorem orderly_notify (h : s.Orderly) : s.notify.Orderly :=
  h.frame (frame_notify) (by rw [jobs_notify]; exact h.sound)

/-! ## Steps on the file -/

theorem orderly_create (h : s.Orderly) (hjob : s.jobs[i]? = some job) (hstage : job.stage = .started)
    (hok : s.Exclusive (.publish i)) : (s.publish i).Orderly := by
  obtain ⟨hsettled, hwaiting, hlater⟩ := hok job hjob hstage
  obtain ⟨hfits, hbuffer⟩ := h.sound i job hjob
  simp only [hstage, reduceCtorEq, false_or] at hbuffer
  unfold publish
  simp only [hjob, hstage]
  refine ⟨sound_setJob h hjob ⟨hfits, .inr (.inr hbuffer)⟩, .inr ⟨i, { job with stage := .created }, ?_⟩⟩
  refine ⟨by simp [getElem?_setJob hjob], by simp, rfl, ?_, ?_, fun x hx => .inl (hwaiting x hx)⟩
  · intro j x hx hbegun hpub
    rcases setJob_cases hjob hx with ⟨rfl, -⟩ | ⟨-, hx⟩
    · exact le_rfl
    by_contra hji
    have hmem : x ∈ s.jobs.drop (i + 1) := by
      refine mem_of_getElem? (i := j - (i + 1)) ?_
      rw [getElem?_drop, show i + 1 + (j - (i + 1)) = j by omega, hx]
    exact hbegun (hlater x hmem hpub)
  · intro j x hx hwriting
    rcases setJob_cases hjob hx with ⟨rfl, -⟩ | ⟨-, hx⟩
    · rfl
    · exact absurd hwriting (hsettled x (mem_of_getElem? hx))

theorem Owned.advance (h : s.Owned i job) (hwriting : job.Writing)
    (hpub : job'.publisher = job.publisher) (hbegun : job'.stage ≠ .started) :
    Owned { s.setJob i job' with content := some job'.image } i job' := by
  refine ⟨?_, hbegun, rfl, fun j x hx hx' hsame => ?_, fun j x hx hx' => ?_, fun x hx => ?_⟩
  · rw [getElem?_setJob h.job_eq, if_pos rfl]
  · rcases setJob_cases h.job_eq hx with ⟨rfl, -⟩ | ⟨-, hx⟩
    · exact le_rfl
    · exact h.latest j x hx hx' (hsame.trans hpub)
  · rcases setJob_cases h.job_eq hx with ⟨rfl, -⟩ | ⟨-, hx⟩
    · rfl
    · exact h.alone j x hx hx'
  · exact .inl ((h.reading x hx).resolve_right fun h' => h'.1 hwriting)

theorem Orderly.owned (h : s.Orderly) (hjob : s.jobs[i]? = some job) (hwriting : job.Writing) :
    s.Owned i job := by
  rcases h.file with hnone | ⟨k, owner, howned⟩
  · rcases hwriting with h' | h' <;> rw [hnone.started i job hjob] at h' <;> cases h'
  · obtain rfl := howned.alone i job hjob hwriting
    exact Option.some.inj (hjob.symm.trans howned.job_eq) ▸ howned

theorem orderly_writing (h : s.Orderly) (hjob : s.jobs[i]? = some job) (hwriting : job.Writing) :
    (s.publish i).Orderly := by
  have howned := h.owned hjob hwriting
  have hcontent := howned.content_eq
  obtain ⟨hfits, hbuffer⟩ := h.sound i job hjob
  unfold publish
  rcases hwriting with hstage | hstage
  · simp only [hstage, reduceCtorEq, false_or] at hbuffer
    have himage : File.writeAt 0 job.image 0 (u32 (UInt32.ofNat job.buffer.length)) =
        Job.image { job with stage := .lengthWritten } := by
      simp only [Job.image, hstage, hbuffer]
      exact File.writeAt_length 0 [] _
    simp only [hjob, hstage, hcontent, map_some, himage]
    exact ⟨sound_setJob h hjob ⟨hfits, .inr (.inr hbuffer)⟩, .inr ⟨i, _,
      howned.advance (.inl hstage) rfl (by simp)⟩⟩
  · simp only [hstage, reduceCtorEq, false_or] at hbuffer
    have himage : File.writeAt 0 job.image 4 job.buffer =
        Job.image { job with stage := .written } := by
      simp only [Job.image, hstage, hbuffer]
      exact File.writeAt_length 0 (u32 _) _
    simp only [hjob, hstage, hcontent, map_some, himage]
    exact ⟨sound_setJob h hjob ⟨hfits, .inl rfl⟩, .inr ⟨i, _,
      howned.advance (.inr hstage) rfl (by simp)⟩⟩

theorem orderly_publish (h : s.Orderly) (hok : s.Exclusive (.publish i)) : (s.publish i).Orderly := by
  cases hjob : s.jobs[i]? with
  | none =>
    unfold publish
    rw [hjob]
    exact h
  | some job =>
    cases hstage : job.stage with
    | started => exact orderly_create h hjob hstage hok
    | created => exact orderly_writing h hjob (.inl hstage)
    | lengthWritten => exact orderly_writing h hjob (.inr hstage)
    | written =>
      unfold publish
      simp only [hjob, hstage]
      refine orderly_notify (h.frame (frame_setJob hjob ?_) (sound_setJob h hjob ?_))
      · refine ⟨rfl, rfl, ?_, ?_, ?_⟩ <;> simp [Job.image, Job.Writing, hstage]
      · exact ⟨(h.sound i job hjob).1, .inr (.inl rfl)⟩
    | notified =>
      unfold publish
      simp only [hjob, hstage]
      exact h

theorem Owned.setListener (h : s.Owned i job)
    (hx : x.reading = .waiting ∨ ¬ job.Writing ∧ x.reading.From job.payload) :
    (s.setListener l x).Owned i job := by
  refine ⟨h.job_eq, h.begun, h.content_eq, h.latest, h.alone, fun y hy => ?_⟩
  rcases mem_or_eq_of_mem_set hy with hold | rfl
  · exact h.reading y hold
  · exact hx

theorem Untouched.setListener (h : s.Untouched) (hx : x.reading = .waiting) :
    (s.setListener l x).Untouched := by
  refine ⟨h.content_eq, h.started, fun y hy => ?_⟩
  rcases mem_or_eq_of_mem_set hy with hold | rfl
  · exact h.waiting y hold
  · exact hx

theorem orderly_receive (h : s.Orderly) (hok : s.Settled) (l : Nat) : (s.receive l).Orderly := by
  unfold receive
  cases hx : s.listeners[l]? with
  | none => exact h
  | some x =>
    dsimp only
    by_cases hidle : x.closed ∨ x.reading ≠ .waiting ∨ x.notifications = 0
    · rw [if_pos hidle]
      exact h
    · rw [if_neg hidle]
      refine ⟨h.sound, ?_⟩
      rcases h.file with hnone | ⟨i, job, howned⟩
      · exact .inl (hnone.setListener (by simp [hnone.content_eq]))
      · refine .inr ⟨i, job, howned.setListener (.inr ⟨?_, ?_⟩)⟩
        · exact hok job (mem_of_getElem? howned.job_eq)
        · exact .inr (.inl (by simp [howned.content_eq]))

theorem Owned.image_eq (h : s.Owned i job) (hwriting : ¬ job.Writing) :
    job.image = framed job.payload := by
  have hbegun := h.begun
  unfold Job.image
  cases hstage : job.stage with
  | started => exact absurd hstage hbegun
  | created => exact absurd (.inl hstage) hwriting
  | lengthWritten => exact absurd (.inr hstage) hwriting
  | written => rfl
  | notified => rfl

theorem orderly_read (h : s.Orderly) (l : Nat) : (s.read l).1.Orderly ∧
      ((s.read l).2 = [] ∨ ∃ i job, s.Owned i job ∧ (s.read l).2 = [⟨l, job.payload⟩]) := by
  unfold read
  cases hx : s.listeners[l]? with
  | none => exact ⟨h, .inl rfl⟩
  | some x =>
    have hmem := mem_of_getElem? hx
    dsimp only
    rcases h.file with hnone | ⟨i, job, howned⟩
    · rw [hnone.waiting x hmem]
      exact ⟨⟨h.sound, .inl (hnone.setListener rfl)⟩, .inl rfl⟩
    · rcases howned.reading x hmem with hwaiting | ⟨hwritten, hfrom⟩
      · rw [hwaiting]
        exact ⟨⟨h.sound, .inr ⟨i, job, howned.setListener (.inl rfl)⟩⟩, .inl rfl⟩
      · have hfits := (h.sound i job howned.job_eq).1
        obtain ⟨hnext, hpayload⟩ := readStep_framed hfits hfrom
        rw [howned.content_eq, howned.image_eq hwritten, getD_some]
        refine ⟨⟨h.sound, .inr ⟨i, job, howned.setListener (.inr ⟨hwritten, hnext⟩)⟩⟩, ?_⟩
        cases hout : (readStep (framed job.payload) x.reading).2 with
        | none => exact .inl rfl
        | some p => exact .inr ⟨i, job, howned, by rw [hpayload p hout]; rfl⟩

/-! ## Runs -/

def Grows (s s' : DataFile) : Prop :=
  ∀ (j : Nat) (job : Job), s.jobs[j]? = some job → ∃ job', s'.jobs[j]? = some job' ∧
    job'.publisher = job.publisher ∧ job'.payload = job.payload ∧
      (job.stage ≠ .started → job'.stage ≠ .started)

theorem grows_of_jobs_eq (h : s'.jobs = s.jobs) : Grows s s' :=
  fun _ job hjob => ⟨job, h ▸ hjob, rfl, rfl, id⟩

theorem grows_setJob (hjob : s.jobs[i]? = some job) (hpub : job'.publisher = job.publisher)
    (hpayload : job'.payload = job.payload) (hstage : job.stage ≠ .started → job'.stage ≠ .started) :
    Grows s (s.setJob i job') := by
  intro j x hx
  exact exists_setJob (R := fun x x' => x'.publisher = x.publisher ∧ x'.payload = x.payload ∧
    (x.stage ≠ .started → x'.stage ≠ .started)) (fun _ => ⟨rfl, rfl, id⟩) hjob
    ⟨hpub, hpayload, hstage⟩ hx

theorem grows_publish (i : Nat) : Grows s (s.publish i) := by
  unfold publish
  cases hjob : s.jobs[i]? with
  | none => exact grows_of_jobs_eq rfl
  | some job =>
    cases hstage : job.stage <;> simp only [hstage]
    case written =>
      have hset : Grows s (s.setJob i { job with stage := .notified }) :=
        grows_setJob hjob rfl rfl (by simp)
      intro j x hx
      rw [jobs_notify]
      exact hset j x hx
    case notified => exact grows_of_jobs_eq rfl
    all_goals exact grows_setJob hjob rfl rfl (by simp)

theorem grows_step (a : Act) : Grows s (s.step a).1 := by
  cases a with
  | listen => exact grows_of_jobs_eq rfl
  | close l =>
    dsimp only [step]
    unfold close
    split
    · exact grows_of_jobs_eq rfl
    · split <;> exact grows_of_jobs_eq rfl
  | write publisher payload =>
    intro j job hjob
    refine ⟨job, ?_, rfl, rfl, id⟩
    rw [step, write, getElem?_append_left (List.getElem?_eq_some_iff.1 hjob).1, hjob]
  | reuse i bytes =>
    dsimp only [step]
    unfold reuse
    cases hjob : s.jobs[i]? with
    | none => exact grows_of_jobs_eq rfl
    | some job =>
      dsimp only
      split
      · exact grows_setJob hjob rfl rfl id
      · exact grows_of_jobs_eq rfl
  | publish i => exact grows_publish i
  | receive l =>
    dsimp only [step]
    unfold receive
    split
    · exact grows_of_jobs_eq rfl
    · split <;> exact grows_of_jobs_eq rfl
  | read l =>
    dsimp only [step]
    unfold read
    split <;> exact grows_of_jobs_eq rfl

def Begun (s : DataFile) (j : Nat) : Prop := ∃ job, s.jobs[j]? = some job ∧ job.stage ≠ .started

theorem Begun.grows (h : s.Begun j) (hg : Grows s s') : s'.Begun j := by
  obtain ⟨job, hjob, hbegun⟩ := h
  obtain ⟨job', hjob', -, -, hstage⟩ := hg j job hjob
  exact ⟨job', hjob', hstage hbegun⟩

theorem writes_getElem? (j : Nat) :
    s.writes[j]? = (s.jobs[j]?).map fun job => (job.publisher, job.payload) :=
  getElem?_map

theorem writes_grows {w : Nat × Bytes} (hg : Grows s s') (h : s.writes[j]? = some w) :
    s'.writes[j]? = some w := by
  rw [writes_getElem?] at h ⊢
  obtain ⟨job, hjob, rfl⟩ := map_eq_some_iff.1 h
  obtain ⟨job', hjob', hpub, hpayload, -⟩ := hg j job hjob
  rw [hjob', map_some, hpub, hpayload]

theorem Begun.writes_eq (h : s.Begun j) (hg : Grows s s') : s'.writes[j]? = s.writes[j]? := by
  obtain ⟨job, hjob, -⟩ := h
  have hw : s.writes[j]? = some (job.publisher, job.payload) := by rw [writes_getElem?, hjob]; rfl
  rw [hw, writes_grows hg hw]

def Reported (s : DataFile) (os : List Returned) : Prop :=
  ∀ l, ∃ js : List Nat,
    List.Forall₂ (fun j payload => (s.writes[j]?).map Prod.snd = some payload) js (returnedTo l os) ∧
    (js.Pairwise fun j k => (s.writes[j]?).map Prod.fst = (s.writes[k]?).map Prod.fst → j ≤ k) ∧
    ∀ j ∈ js, s.Begun j

theorem Reported.grows (h : s.Reported os) (hg : Grows s s') : s'.Reported os := by
  intro l
  obtain ⟨js, hpayloads, hordered, hbegun⟩ := h l
  refine ⟨js, ?_, ?_, fun j hj => (hbegun j hj).grows hg⟩
  · refine hpayloads.imp fun j payload hpayload => ?_
    obtain ⟨w, hw, rfl⟩ := map_eq_some_iff.1 hpayload
    rw [writes_grows hg hw, map_some]
  · refine hordered.imp_of_mem fun hj hk hle => ?_
    rwa [(hbegun _ hj).writes_eq hg, (hbegun _ hk).writes_eq hg]

theorem Reported.read (h : s.Reported os) (howned : s.Owned i job) (l : Nat) :
    s.Reported (os ++ [⟨l, job.payload⟩]) := by
  intro l'
  obtain ⟨js, hpayloads, hordered, hbegun⟩ := h l'
  by_cases hl : l = l'
  · have hwrites : s.writes[i]? = some (job.publisher, job.payload) := by
      rw [writes_getElem?, howned.job_eq]
      rfl
    have hlist : returnedTo l' (os ++ [⟨l, job.payload⟩]) = returnedTo l' os ++ [job.payload] := by
      simp [returnedTo, hl]
    refine ⟨js ++ [i], ?_, ?_, ?_⟩
    · rw [hlist]
      exact rel_append hpayloads (.cons (by rw [hwrites]; rfl) .nil)
    · refine pairwise_append.2 ⟨hordered, pairwise_singleton _ _, fun j hj k hk => ?_⟩
      obtain rfl := mem_singleton.1 hk
      obtain ⟨x, hx, hxbegun⟩ := hbegun j hj
      rw [hwrites, writes_getElem?, hx]
      exact fun heq => howned.latest j x hx hxbegun (Option.some.inj heq)
    · intro j hj
      rcases mem_append.1 hj with hj | hj
      · exact hbegun j hj
      · exact ⟨job, mem_singleton.1 hj ▸ howned.job_eq, howned.begun⟩
  · have hlist : returnedTo l' (os ++ [⟨l, job.payload⟩]) = returnedTo l' os := by
      simp [returnedTo, hl]
    exact ⟨js, hlist ▸ hpayloads, hordered, hbegun⟩

theorem orderly_step (h : s.Orderly) {a : Act} (hok : s.Exclusive a) : (s.step a).1.Orderly := by
  cases a with
  | listen => exact orderly_listen h
  | close l => exact orderly_close h l
  | write publisher payload => exact orderly_write h publisher hok
  | reuse i bytes => exact orderly_reuse h hok
  | publish i => exact orderly_publish h hok
  | receive l => exact orderly_receive h hok l
  | read l => exact (orderly_read h l).1

theorem reported_step (h : s.Orderly) (hr : s.Reported os) (a : Act) :
    (s.step a).1.Reported (os ++ (s.step a).2) := by
  refine Reported.grows ?_ (grows_step a)
  cases a with
  | read l =>
    rcases (orderly_read h l).2 with hnone | ⟨i, job, howned, hout⟩
    · rw [step, hnone, append_nil]
      exact hr
    · rw [step, hout]
      exact hr.read howned l
  | _ => exact (append_nil os).symm ▸ hr

/-- If no `shmPublish` begins between the truncation and the payload of another one or while a
listener reads, those of one publisher begin in order, and no listener begins to read in the
middle of one, then every payload read is that of a `Write`, and those of one publisher are read
in order. -/
theorem payload_integrity (acts : List Act)
    (h : Run.Along (fun _ s a => s.Exclusive a) step [] new acts) (l : Nat) :
    Intact (Run.run step new acts).1.writes (returnedTo l (Run.run step new acts).2) := by
  have hnew : new.Orderly :=
    ⟨fun j job h => by simp [new] at h, .inl ⟨rfl, fun j job h => by simp [new] at h, by simp [new]⟩⟩
  have hall := run_induction (J := fun s _ os => s.Orderly ∧ s.Reported os)
    (fun s a _ os hok hs => ⟨orderly_step hs.1 hok, reported_step hs.1 hs.2 a⟩)
    ⟨hnew, fun l => ⟨[], .nil, .nil, by simp⟩⟩ h
  obtain ⟨js, hpayloads, hordered, -⟩ := hall.2 l
  exact ⟨js, hpayloads, hordered⟩

theorem payload_integrity_in_turn :
    let acts : List Act := [.listen, .write 0 [1, 2], .write 0 [3],
      .publish 0, .publish 0, .publish 0, .publish 0, .receive 0, .read 0, .read 0,
      .publish 1, .publish 1, .publish 1, .publish 1, .receive 0, .read 0, .read 0]
    returnedTo 0 (run step new acts).2 = [[1, 2], [3]] ∧
      Intact (run step new acts).1.writes (returnedTo 0 (run step new acts).2) := by
  intro acts
  exact ⟨by decide +kernel, payload_integrity acts (by decide +kernel) 0⟩

/-- One publisher writes `aaaa` and `bb`. If the second `shmPublish` runs within the first, `aa` is
read; if it goes first, `bb` is read before `aaaa`. -/
theorem mixed_and_reordered :
    let writes : List Act := [.listen, .write 0 (str "aaaa"), .write 0 (str "bb")]
    let second : List Act := [.publish 1, .publish 1, .publish 1, .publish 1]
    let received : List Act := [.receive 0, .read 0, .read 0]
    let mixed := [.publish 0, .publish 0] ++ second ++ .publish 0 :: received
    let reordered := second ++ received ++
      [.publish 0, .publish 0, .publish 0, .publish 0] ++ received
    returnedTo 0 (run step new (writes ++ mixed)).2 = [str "aa"] ∧
      ¬ Intact [(0, str "aaaa"), (0, str "bb")] [str "aa"] ∧
      returnedTo 0 (run step new (writes ++ reordered)).2 = [str "bb", str "aaaa"] ∧
      ¬ Intact [(0, str "aaaa"), (0, str "bb")] [str "bb", str "aaaa"] ∧
      (run step new (writes ++ mixed)).1.writes = [(0, str "aaaa"), (0, str "bb")] ∧
      (run step new (writes ++ reordered)).1.writes = [(0, str "aaaa"), (0, str "bb")] := by
  intro writes second received mixed reordered
  refine ⟨by decide +kernel, ?_, by decide +kernel, ?_, by decide +kernel, by decide +kernel⟩
  · rintro ⟨js, hpayloads, -⟩
    obtain ⟨j, -, hj, -, rfl⟩ := forall₂_cons_right_iff.1 hpayloads
    match j with
    | 0 | 1 => exact absurd hj (by decide)
    | j + 2 => exact absurd hj (by simp)
  · rintro ⟨js, hpayloads, hordered⟩
    obtain ⟨j, rest, hj, hrest, rfl⟩ := forall₂_cons_right_iff.1 hpayloads
    obtain ⟨k, _, hk, -, rfl⟩ := forall₂_cons_right_iff.1 hrest
    have hle := (pairwise_cons.1 hordered).1 k mem_cons_self
    match j, k with
    | 0, _ => exact absurd hj (by decide)
    | j + 2, _ => exact absurd hj (by simp)
    | 1, 0 => exact absurd (hle rfl) (by decide)
    | 1, 1 => exact absurd hk (by decide)
    | 1, k + 2 => exact absurd hk (by simp)

end DataFile

end GoDDS.Shmem
