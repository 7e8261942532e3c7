import GoDDS.Lib.Go
import GoDDS.Lib.Registry
import GoDDS.Lib.Stream

/-!
# The relay

Clients register with the relay under an id and send to each other through it.
-/

namespace GoDDS.Bridge.Relay

open ByteCodec Go Option List

/-! ## Frames -/

def maxFrameBytes : Nat := 16 * 1024 * 1024

def maxIDBytes : Nat := 4096

inductive FrameType where
  | register
  | send
  | deliver
  | error
  deriving DecidableEq

def FrameType.tag : FrameType → Nat
  | .register => 0x01
  | .send => 0x10
  | .deliver => 0x11
  | .error => 0x30

def FrameType.ofTag (b : Nat) : Option FrameType :=
  [register, send, deliver, error].find? fun t => t.tag = b

structure Frame where
  typ : FrameType
  idField : Bytes
  payload : Bytes

def Frame.body (f : Frame) : Bytes :=
  be 1 f.typ.tag ++ (be 2 f.idField.length ++ (f.idField ++ f.payload))

def Frame.encode (f : Frame) : Bytes := be 4 f.body.length ++ f.body

/-- The frame and the id are limited. -/
def writeFrame (f : Frame) : Option Bytes :=
  if maxIDBytes < f.idField.length then none
  else if maxFrameBytes < f.body.length % 2 ^ 32 then none
  else some f.encode

/-- The frame is limited. -/
def readFrame (r : Bytes) : Option (Frame × Bytes) := do
  let (n, r) ← readBE 4 r
  if n = 0 ∨ maxFrameBytes < n then none
  let (body, rest) ← readFull n r
  let (tag, body) ← readBE 1 body
  let (idLen, body) ← readBE 2 body
  let (idField, payload) ← readFull idLen body
  let typ ← FrameType.ofTag tag
  return (⟨typ, idField, payload⟩, rest)

variable {f : Frame} {r rest : Bytes}

@[simp] theorem Frame.length_body (f : Frame) :
    f.body.length = 3 + f.idField.length + f.payload.length := by
  simp [body]
  omega

theorem ofTag_tag (t : FrameType) : FrameType.ofTag t.tag = some t := by
  cases t <;> rfl

open Relay.Frame

theorem readFrame_encode (hid : f.idField.length < 2 ^ 16) (hbody : f.body.length ≤ maxFrameBytes) :
    readFrame (f.encode ++ rest) = some (f, rest) := by
  have hlen := f.length_body
  have htag : f.typ.tag < 256 ^ 1 := by cases f.typ <;> decide
  have hsize : ¬ (f.body.length = 0 ∨ maxFrameBytes < f.body.length) := by omega
  unfold maxFrameBytes at hbody
  rw [readFrame, encode, append_assoc, readBE_append (by omega)]
  simp only [bind_eq_bind, bind_some, hsize, if_false]
  rw [readFull_append rfl, bind_some, body, readBE_append htag, bind_some,
    readBE_append hid, bind_some, readFull_append rfl, bind_some, ofTag_tag]
  rfl

theorem readFrame_encode_self (hid : f.idField.length < 2 ^ 16)
    (hbody : f.body.length ≤ maxFrameBytes) : readFrame f.encode = some (f, []) := by
  have hread : readFrame (f.encode ++ []) = some (f, []) := readFrame_encode hid hbody
  rwa [append_nil] at hread

theorem length_body_of_readFrame (h : readFrame r = some (f, rest)) :
    f.body.length ≤ maxFrameBytes := by
  simp only [readFrame, bind_eq_bind, bind_eq_some_iff] at h
  obtain ⟨⟨n, r⟩, -, h⟩ := h
  split_ifs at h with hn
  · simp at h
  simp only [bind_eq_some_iff] at h
  obtain ⟨⟨body, _⟩, hbody, ⟨_, b₁⟩, htag, ⟨idLen, b₂⟩, hidLen, ⟨id, payload⟩, hid, _, -, heq⟩ := h
  cases heq
  have hlen := length_readFull hbody
  have hafter := length_readBE htag
  have hrest := length_readBE hidLen
  have hfields := length_readFull hid
  rw [length_body]
  dsimp only at *
  omega

/-! ## The client's side

`relayWriteFrame` and `relayReadFrame` of package rtps. The client does not look at the type. -/

def relayMaxFrameBytes : Nat := 16 * 1024 * 1024

def relayMaxIDBytes : Nat := 4096

def relayWriteFrame (f : Frame) : Option Bytes :=
  if relayMaxIDBytes < f.idField.length then none
  else if relayMaxFrameBytes < f.body.length % 2 ^ 32 then none
  else some f.encode

def relayReadFrame (r : Bytes) : Option ((Nat × Bytes × Bytes) × Bytes) := do
  let (n, r) ← readBE 4 r
  if n = 0 ∨ relayMaxFrameBytes < n then none
  let (body, rest) ← readFull n r
  let (typ, body) ← readBE 1 body
  let (idLen, body) ← readBE 2 body
  let (idField, payload) ← readFull idLen body
  return ((typ, idField, payload), rest)

def Frame.fields (f : Frame) : Nat × Bytes × Bytes := (f.typ.tag, f.idField, f.payload)

def Frame.Fits (f : Frame) : Prop :=
  f.idField.length ≤ maxIDBytes ∧ f.body.length ≤ maxFrameBytes

theorem readFrame_eq (r : Bytes) : readFrame r = (relayReadFrame r).bind fun x =>
    (FrameType.ofTag x.1.1).map fun typ => (⟨typ, x.1.2.1, x.1.2.2⟩, x.2) := by
  simp only [readFrame, relayReadFrame, maxFrameBytes, relayMaxFrameBytes, bind_eq_bind,
    bind_assoc, map_eq_bind]
  congr 1
  funext x
  by_cases hn : x.1 = 0 ∨ 16 * 1024 * 1024 < x.1
  · simp only [hn, if_true]
    rfl
  · simp only [hn, if_false, bind_assoc]
    rfl

theorem Frame.Fits.readFrame (h : f.Fits) (rest : Bytes) :
    readFrame (f.encode ++ rest) = some (f, rest) :=
  readFrame_encode (by have := h.1; unfold maxIDBytes at this; omega) h.2

theorem relayReadFrame_of_readFrame (h : readFrame r = some (f, rest)) :
    relayReadFrame r = some (f.fields, rest) := by
  rw [readFrame_eq] at h
  obtain ⟨⟨⟨tag, id, payload⟩, rest'⟩, hread, h⟩ := bind_eq_some_iff.1 h
  obtain ⟨typ, htyp, heq⟩ := map_eq_some_iff.1 h
  cases heq
  have htag : typ.tag = tag := by simpa using find?_some htyp
  rw [hread, ← htag]
  rfl

theorem writeFrame_eq_some {b : Bytes} (hsize : f.body.length < 2 ^ 32) :
    writeFrame f = some b ↔ f.Fits ∧ f.encode = b := by
  rw [writeFrame, Nat.mod_eq_of_lt hsize]
  split_ifs with hid hbody
  · exact iff_of_false (by simp) fun h => absurd h.1.1 (not_le.2 hid)
  · exact iff_of_false (by simp) fun h => absurd h.1.2 (not_le.2 hbody)
  · exact some_inj.trans (and_iff_right ⟨not_lt.1 hid, not_lt.1 hbody⟩).symm

theorem Frame.Fits.writeFrame (h : f.Fits) : writeFrame f = some f.encode :=
  (writeFrame_eq_some (h.2.trans_lt (by decide))).2 ⟨h, rfl⟩

theorem mapM_writeFrame {fs : List Frame} (hfs : ∀ f ∈ fs, f.Fits) :
    fs.mapM writeFrame = some (fs.map encode) := by
  induction fs with
  | nil => rfl
  | cons f fs ih =>
    simp [(hfs f mem_cons_self).writeFrame, ih fun g hg => hfs g (mem_cons_of_mem f hg)]

/-- Server and client read back from a stream the frames the other one writes, and neither writes a
frame of less than 4 GiB that the other refuses. -/
theorem framing_interoperates (fs : List Frame) (hfs : ∀ f ∈ fs, f.Fits) (rest : Bytes) :
    (∃ out, fs.mapM relayWriteFrame = some out ∧
      readMany readFrame fs.length (out.flatten ++ rest) = some (fs, rest)) ∧
    (∃ out, fs.mapM writeFrame = some out ∧
      readMany relayReadFrame fs.length (out.flatten ++ rest) = some (fs.map Frame.fields, rest)) ∧
    ∀ f b, f.body.length < 2 ^ 32 → ∀ rest,
      (relayWriteFrame f = some b → readFrame (b ++ rest) = some (f, rest)) ∧
      (writeFrame f = some b → relayReadFrame (b ++ rest) = some (f.fields, rest)) := by
  have hserver : ∀ f : Frame, f.Fits → ∀ rest, readFrame (f.encode ++ rest) = some (f, rest) :=
    fun f hf rest => hf.readFrame rest
  have hclient : ∀ f : Frame, f.Fits → ∀ rest,
      relayReadFrame (f.encode ++ rest) = some (f.fields, rest) :=
    fun f hf rest => relayReadFrame_of_readFrame (hf.readFrame rest)
  have hsame : relayWriteFrame = writeFrame := rfl
  rw [hsame]
  refine ⟨⟨_, mapM_writeFrame hfs, ?_⟩, ⟨_, mapM_writeFrame hfs, ?_⟩, fun f b hsize rest => ?_⟩
  · have hall : readMany readFrame fs.length (fs.flatMap encode ++ rest) =
        some (fs.map id, rest) := readMany_flatMap (fun f hf => hserver f (hfs f hf)) rest
    rwa [List.map_id, List.flatMap_def] at hall
  · exact readMany_flatMap (fun f hf => hclient f (hfs f hf)) rest
  · rw [writeFrame_eq_some hsize]
    constructor <;> rintro ⟨hfits, rfl⟩
    · exact hserver f hfits rest
    · exact hclient f hfits rest

theorem two_frames_interoperate :
    let fs : List Frame := [⟨.register, str "a", []⟩, ⟨.send, str "b", [7]⟩]
    ∃ out, fs.mapM relayWriteFrame = some out ∧ readMany readFrame 2 out.flatten = some (fs, []) := by
  have h := (framing_interoperates [⟨.register, str "a", []⟩, ⟨.send, str "b", [7]⟩]
    (by simp [Frame.Fits, maxIDBytes, maxFrameBytes, str]) []).1
  simpa using h

/-! ## The server -/

/-- The connection registered under each id, and the id each connection has registered under. -/
structure Server where
  clients : Table Str Nat
  ids : Table Nat Str

namespace Server

def new : Server := ⟨Table.empty, Table.empty⟩

/-- `register`. The connection that had the id is closed. -/
def register (s : Server) (id : Str) (conn : Nat) : Server :=
  ⟨s.clients.set id conn, s.ids.set conn id⟩

def unregister (s : Server) (id : Str) (conn : Nat) : Server :=
  ⟨if s.clients id = some conn then s.clients.erase id else s.clients, s.ids.erase conn⟩

def errNoSuchPeer : Str := str "relay: no such peer registered"

/-- The error of `writeFrame` is ignored. -/
def forward (s : Server) (conn : Nat) (id targetID payload : Str) : List (Nat × Bytes) :=
  match s.clients targetID with
  | none => ((writeFrame ⟨.error, [], errNoSuchPeer⟩).map (conn, ·)).toList
  | some target => ((writeFrame ⟨.deliver, id, payload⟩).map (target, ·)).toList

def handleConn (s : Server) (conn : Nat) (r : Bytes) : Server × List (Nat × Bytes) :=
  match s.ids conn, readFrame r with
  | none, _ => (s, [])
  | some id, none => (s.unregister id conn, [])
  | some id, some (f, _) =>
    if f.typ ≠ .send ∨ f.idField = [] then (s, [])
    else (s, s.forward conn id f.idField f.payload)

def Gets (out : List (Nat × Bytes)) (conn : Nat) (f : Frame) : Prop :=
  ∃ b, (conn, b) ∈ out ∧ readFrame b = some (f, [])

/-- The payload is delivered to the target's connection, or the sender gets an ERROR frame. -/
def Answered (s : Server) (conn : Nat) (id target payload : Str) (out : List (Nat × Bytes)) : Prop :=
  (∃ t, s.clients target = some t ∧ Gets out t ⟨.deliver, id, payload⟩) ∨
    ∃ f : Frame, f.typ = .error ∧ Gets out conn f

variable {s : Server}

theorem gets_writeFrame (h : f.Fits) (conn : Nat) :
    Gets ((writeFrame f).map (conn, ·)).toList conn f := by
  have hread := h.readFrame []
  rw [append_nil] at hread
  rw [h.writeFrame]
  exact ⟨f.encode, by simp, hread⟩

theorem writeFrame_eq_none (hpayload : f.payload.length ≤ maxFrameBytes) (h : ¬ f.Fits) :
    writeFrame f = none := by
  have hlen := f.length_body
  unfold Frame.Fits at h
  unfold writeFrame
  split_ifs with hid hbody
  · rfl
  · rfl
  · unfold maxIDBytes maxFrameBytes at *
    omega

/-- A SEND that is read from a registered client is delivered or reported exactly if it has a target
and the DELIVER frame, which carries the sender's id, is within the limits of `writeFrame`. -/
theorem answered_iff (s : Server) {conn : Nat} {id target payload r rest : Bytes}
    (hconn : s.ids conn = some id) (hr : readFrame r = some (⟨.send, target, payload⟩, rest)) :
    s.Answered conn id target payload (s.handleConn conn r).2 ↔
      target ≠ [] ∧ (s.clients target = none ∨
        id.length ≤ maxIDBytes ∧ 3 + id.length + payload.length ≤ maxFrameBytes) := by
  have hsilent : ¬ s.Answered conn id target payload [] := by simp [Answered, Gets]
  have hlen := length_body_of_readFrame hr
  have hpayload : payload.length ≤ maxFrameBytes := by
    rw [length_body] at hlen
    dsimp only at hlen
    omega
  simp only [handleConn, hconn, hr]
  by_cases htarget : target = []
  · simpa [htarget] using htarget ▸ hsilent
  simp only [htarget, ne_eq, not_true, false_or, if_false, not_false_iff, true_and, forward]
  cases hpeer : s.clients target with
  | none =>
    have hgets := gets_writeFrame (f := ⟨.error, [], errNoSuchPeer⟩) ⟨by decide, by decide⟩ conn
    exact iff_of_true (.inr ⟨_, rfl, hgets⟩) (.inl rfl)
  | some t =>
    have hfits : id.length ≤ maxIDBytes ∧ 3 + id.length + payload.length ≤ maxFrameBytes ↔
        (⟨.deliver, id, payload⟩ : Frame).Fits := by
      rw [Frame.Fits, length_body]
    rw [hfits]
    by_cases h : (⟨.deliver, id, payload⟩ : Frame).Fits
    · exact iff_of_true (.inl ⟨t, hpeer, gets_writeFrame h t⟩) (.inr h)
    · dsimp only
      rw [writeFrame_eq_none hpayload h]
      exact iff_of_false hsilent (by simpa using h)

theorem answered_short :
    let s := (new.register (str "a") 0).register (str "b") 1
    s.Answered 0 (str "a") (str "b") [7] (s.handleConn 0 (⟨.send, str "b", [7]⟩ : Frame).encode).2 :=
  (answered_iff _ (by decide) (readFrame_encode_self (by decide) (by decide))).2
    ⟨by decide, .inr ⟨by decide, by decide⟩⟩

/-- **An id that `readFrame` accepts and `writeFrame` does not.** What its client sends is lost. -/
theorem long_id_not_answered :
    let id : Str := replicate 4097 97
    let s := (new.register id 0).register (str "b") 1
    let r := (⟨.send, str "b", [7]⟩ : Frame).encode
    readFrame (⟨.register, id, []⟩ : Frame).encode = some (⟨.register, id, []⟩, []) ∧
      readFrame r = some (⟨.send, str "b", [7]⟩, []) ∧ s.clients (str "b") = some 1 ∧
      (s.handleConn 0 r).2 = [] := by
  intro id s r
  have hlen : id.length = 4097 := length_replicate
  have hr : readFrame r = _ := readFrame_encode_self (by decide) (by decide)
  have hids : s.ids 0 = some id := by simp [s, register, Table.set_ne]
  have hb : s.clients (str "b") = some 1 := by simp [s, register]
  refine ⟨readFrame_encode_self (by simp [hlen]) ?_, hr, hb, ?_⟩
  · rw [length_body]
    simp [hlen, maxFrameBytes]
  · simp [handleConn, hids, hr, forward, hb, writeFrame, maxIDBytes, hlen, show str "b" ≠ [] by decide]

/-! ## Reconnecting -/

/-- The steps under the server's lock, each by the handler of a connection. -/
inductive Step where
  | register (id : Str) (conn : Nat)
  | unregister (id : Str) (conn : Nat)

def step (s : Server) : Step → Server
  | .register id conn => s.register id conn
  | .unregister id conn => s.unregister id conn

/-- The connection was registered for the id, and since then none was, and it was not
unregistered. -/
def Current (steps : List Step) (id : Str) (conn : Nat) : Prop :=
  ∃ past since, steps = past ++ .register id conn :: since ∧
    (∀ c, .register id c ∉ since) ∧ .unregister id conn ∉ since

theorem current_append {steps : List Step} {id : Str} {conn : Nat} (e : Step) :
    Current (steps ++ [e]) id conn ↔ e = .register id conn ∨
      Current steps id conn ∧ (∀ c, e ≠ .register id c) ∧ e ≠ .unregister id conn := by
  constructor
  · rintro ⟨past, since, h, hlast, hstays⟩
    rcases since.eq_nil_or_concat with rfl | ⟨since, e', rfl⟩
    · exact .inl (cons.inj (append_inj' h rfl).2).1
    · rw [concat_eq_append, ← cons_append, ← append_assoc] at h
      obtain ⟨hsteps, he⟩ := append_inj' h rfl
      obtain rfl := (cons.inj he).1
      simp only [concat_eq_append, mem_append, mem_singleton, not_or] at hlast hstays
      exact .inr ⟨⟨past, since, hsteps, fun c => (hlast c).1, hstays.1⟩,
        fun c => Ne.symm (hlast c).2, Ne.symm hstays.2⟩
  · rintro (rfl | ⟨⟨past, since, rfl, hlast, hstays⟩, hnew, hgone⟩)
    · exact ⟨steps, [], rfl, by simp, by simp⟩
    · refine ⟨past, since ++ [e], by simp, fun c => ?_, ?_⟩
      · simp [hlast c, (hnew c).symm]
      · simp [hstays, hgone.symm]

/-- **The last registration wins**: the table has a connection for an id exactly if it is
current. -/
theorem registered_iff_current (steps : List Step) (id : Str) (conn : Nat) :
    (steps.foldl step new).clients id = some conn ↔ Current steps id conn := by
  induction steps using reverseRecOn with
  | nil => simp [new, Current]
  | append_singleton steps e ih =>
    rw [foldl_append, current_append, ← ih]
    generalize steps.foldl step new = s
    cases e with
    | register id' c =>
      show s.clients.set id' c id = some conn ↔ _
      rw [Table.set_eq_some]
      by_cases h : id = id'
      · simp [h]
      · simp [h, Ne.symm h]
    | unregister id' c =>
      show (if s.clients id' = some c then s.clients.erase id' else s.clients) id = some conn ↔ _
      split_ifs with hcur
      · rw [Table.erase_eq_some]
        by_cases h : id = id'
        · subst h
          simp [hcur, eq_comm]
        · simp [h, Ne.symm h]
      · have hother : s.clients id = some conn → ¬ (id' = id ∧ c = conn) := by
          rintro hs ⟨rfl, rfl⟩
          exact hcur hs
        simpa using hother

end Server

end GoDDS.Bridge.Relay
