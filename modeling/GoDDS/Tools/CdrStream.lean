import GoDDS.Lib.Run
import GoDDS.Ros2.Cdr
import GoDDS.Tools.Cdr

/-!
# Sequences of values of `tools/cdr`
-/

namespace GoDDS.Tools.Cdr

open ByteCodec Go List

structure TypedValue where
  kind : Kind
  val : kind.Val

def Encoder.writeAll (vs : List TypedValue) (e : Encoder) : Encoder :=
  vs.foldl (fun e v => e.write v.kind v.val) e

def Encoder.bytes (e : Encoder) : Bytes := e.buf

def Decoder.step (d : Decoder) (k : Kind) : Decoder × List (Except Error TypedValue) :=
  ((Decoder.read k d).2, [(Decoder.read k d).1.map (TypedValue.mk k)])

/-! ## Round trip -/

namespace Encoder

theorem buf_isPrefix_writeAll (vs : List TypedValue) (e : Encoder) :
    e.buf <+: (e.writeAll vs).buf := by
  induction vs generalizing e with
  | nil => exact prefix_rfl
  | cons v vs ih => exact (buf_isPrefix_write v.kind v.val e).trans (ih _)

theorem exists_bytes_writeAll (vs : List TypedValue) :
    ∃ body, (new.writeAll vs).bytes = encapHeader ++ body := by
  obtain ⟨body, hbody⟩ := buf_isPrefix_writeAll vs new
  exact ⟨body, hbody.symm⟩

end Encoder

namespace Decoder

theorem run_writeAll {vs : List TypedValue} (hfits : ∀ v ∈ vs, v.kind.Fits v.val) (e : Encoder)
    {buf : Bytes} (h : (e.writeAll vs).buf <+: buf) :
    Run.run step ⟨buf, e.buf.length⟩ (vs.map TypedValue.kind) =
      (⟨buf, (e.writeAll vs).buf.length⟩, vs.map .ok) := by
  induction vs generalizing e with
  | nil => rfl
  | cons v vs ih =>
    have hfirst : (e.write v.kind v.val).buf <+: buf :=
      (Encoder.buf_isPrefix_writeAll vs _).trans h
    have hread := read_write v.val (hfits v (by simp)) e hfirst
    have hstep : step ⟨buf, e.buf.length⟩ v.kind =
        (⟨buf, (e.write v.kind v.val).buf.length⟩, [.ok v]) := by
      simp only [step, hread]
      rfl
    rw [map_cons, Run.run_cons, hstep]
    rw [ih (fun w hw => hfits w (by simp [hw])) (e.write v.kind v.val) h]
    rfl

theorem new_of_header (body : Bytes) :
    new (encapHeader ++ body) = .ok ⟨encapHeader ++ body, encapHeader.length⟩ := by
  have hlong : ¬ (encapHeader ++ body).length < encapHeaderLen := by
    simp [encapHeader, encapHeaderLen]
  have hscheme : u16BEAt (encapHeader ++ body) 0 = 0x0001 := by
    simp only [u16BEAt, slice, encapHeader, cons_append, take_succ_cons, take_zero, drop_zero]
    decide
  unfold new
  rw [if_neg hlong]
  rw [hscheme]
  rfl

/-- The reads that repeat the types of the writes return the values written and leave nothing
over. -/
theorem stream_round_trip (vs : List TypedValue) (hfits : ∀ v ∈ vs, v.kind.Fits v.val) :
    ∃ d, Decoder.new (Encoder.new.writeAll vs).bytes = .ok d ∧
      (Run.run step d (vs.map TypedValue.kind)).2 = vs.map .ok ∧
      (Run.run step d (vs.map TypedValue.kind)).1.remaining = 0 := by
  obtain ⟨body, hbody⟩ := Encoder.exists_bytes_writeAll vs
  have hrun := run_writeAll hfits Encoder.new (prefix_rfl (l := (Encoder.new.writeAll vs).buf))
  refine ⟨⟨(Encoder.new.writeAll vs).bytes, Encoder.new.buf.length⟩, ?_, ?_, ?_⟩
  · rw [hbody]
    exact new_of_header body
  · exact congrArg Prod.snd hrun
  · rw [show Run.run step ⟨(Encoder.new.writeAll vs).bytes, Encoder.new.buf.length⟩ _ = _ from hrun]
    exact Int.sub_self _

theorem stream_round_trip_mixed :
    let vs : List TypedValue :=
      [⟨.bool, true⟩, ⟨.uint64, (1 : UInt64)⟩, ⟨.string, str "ab"⟩, ⟨.uint8, (7 : UInt8)⟩]
    (∀ v ∈ vs, v.kind.Fits v.val) ∧
      ∃ d, Decoder.new (Encoder.new.writeAll vs).bytes = .ok d ∧
        (Run.run step d (vs.map TypedValue.kind)).2 = vs.map .ok ∧
        (Run.run step d (vs.map TypedValue.kind)).1.remaining = 0 := by
  intro vs
  have hfits : ∀ v ∈ vs, v.kind.Fits v.val := by
    simp [vs, Kind.Fits, Go.str]
  exact ⟨hfits, stream_round_trip vs hfits⟩

end Decoder

/-! ## Alignment -/

variable {e : Encoder} {α : Type}

namespace Encoder

/-- A write puts `pad` zeros and then the value, and the value stands at the first multiple of its
width, counted from the offset `base`. -/
structure Placed (base : Nat) (e : Encoder) (v : TypedValue) (pad : Nat) : Prop where
  bytes : (e.write v.kind v.val).buf = e.buf ++ replicate pad 0 ++ v.kind.image v.val
  aligned : v.kind.width ∣ e.buf.length + pad - base
  least : ∀ q < pad, ¬ v.kind.width ∣ e.buf.length + q - base

theorem padding_spec {n : Nat} (hn : n ∈ [1, 2, 4, 8]) (len : Nat) :
    n ∣ len + padding n len ∧ ∀ q < padding n len, ¬ n ∣ len + q := by
  simp only [mem_cons, not_mem_nil, or_false] at hn
  unfold padding
  rcases hn with rfl | rfl | rfl | rfl <;> exact ⟨by omega, fun q hq => by omega⟩

theorem padding_body {n len : Nat} (hn : n ∈ [1, 2, 4]) (hlen : encapHeaderLen ≤ len) :
    padding n len = padding n (len - encapHeaderLen) := by
  simp only [mem_cons, not_mem_nil, or_false] at hn
  unfold padding encapHeaderLen at *
  rcases hn with rfl | rfl | rfl <;> omega

theorem width_mem (k : Kind) : k.width ∈ [1, 2, 4, 8] := by
  cases k <;> simp [Kind.width]

theorem Placed.pad_eq {base pad : Nat} {v : TypedValue} (h : e.Placed base v pad) :
    pad = padding v.kind.width e.buf.length := by
  have hlen := congrArg length ((write_eq _ _ e).symm.trans h.bytes)
  simp only [length_append, length_align, length_replicate] at hlen
  omega

theorem placed_buffer (e : Encoder) (v : TypedValue) :
    e.Placed 0 v (padding v.kind.width e.buf.length) := by
  obtain ⟨hdvd, hleast⟩ := padding_spec (width_mem v.kind) e.buf.length
  exact ⟨write_eq _ _ e, hdvd, hleast⟩

theorem not_placed_body_of_eight (he : encapHeaderLen ≤ e.buf.length) {v : TypedValue}
    (hk : v.kind.width = 8) (pad : Nat) : ¬ e.Placed encapHeaderLen v pad := by
  intro h
  have hdvd := h.aligned
  rw [h.pad_eq, hk] at hdvd
  unfold padding encapHeaderLen at *
  omega

/-- For 2 and 4 bytes the header, which has 4, makes no difference. -/
theorem placed_body_of_small (he : encapHeaderLen ≤ e.buf.length) {v : TypedValue}
    (hk : v.kind.width ∈ [1, 2, 4]) :
    e.Placed encapHeaderLen v (padding v.kind.width (e.buf.length - encapHeaderLen)) := by
  obtain ⟨hdvd, hleast⟩ := padding_spec (width_mem v.kind) (e.buf.length - encapHeaderLen)
  have hbody : ∀ q, e.buf.length + q - encapHeaderLen = e.buf.length - encapHeaderLen + q := by
    omega
  refine ⟨?_, ?_, fun q hq => ?_⟩
  · rw [write_eq, align, padding_body hk he]
  · rwa [hbody]
  · rw [hbody]
    exact hleast q hq

theorem placed_body_iff (he : encapHeaderLen ≤ e.buf.length) (v : TypedValue) :
    (∃ pad, e.Placed encapHeaderLen v pad ∧
      (Ros2.CdrWriter.align v.kind.width ⟨e.buf⟩).buf = e.buf ++ replicate pad 0) ↔
      v.kind.width ≠ 8 := by
  constructor
  · rintro ⟨pad, h, -⟩ hk
    exact not_placed_body_of_eight he hk pad h
  · intro hk
    have hsmall : v.kind.width ∈ [1, 2, 4] := by
      have hmem := width_mem v.kind
      simp_all
    exact ⟨_, placed_body_of_small he hsmall, Ros2.CdrWriter.align_buf _ _⟩

theorem length_writeAll (vs : List TypedValue) : encapHeaderLen ≤ (new.writeAll vs).buf.length :=
  (buf_isPrefix_writeAll vs new).length_le

/-- Each value of a sequence is padded from the start of the buffer, header included. It stands
where CDR and the ROS 2 package want it, counted from the end of the header, exactly if it has not 8
bytes. -/
theorem values_placed (before after : List TypedValue) (v : TypedValue) :
    let e := new.writeAll before
    (e.write v.kind v.val).buf <+: (new.writeAll (before ++ v :: after)).bytes ∧
      (∃ pad, e.Placed 0 v pad) ∧
      ((∃ pad, e.Placed encapHeaderLen v pad ∧
        (Ros2.CdrWriter.align v.kind.width ⟨e.buf⟩).buf = e.buf ++ replicate pad 0) ↔
        v.kind.width ≠ 8) := by
  intro e
  refine ⟨?_, ⟨_, placed_buffer e v⟩, placed_body_iff (length_writeAll before) v⟩
  rw [bytes, writeAll, foldl_append]
  exact buf_isPrefix_writeAll after _

/-- **A first value of 8 bytes is padded by 4**, where the writer of the ROS 2 package adds
nothing. -/
theorem first_eight_bytes_off :
    let v : TypedValue := ⟨.uint64, (1 : UInt64)⟩
    (new.write v.kind v.val).bytes = encapHeader ++ [0, 0, 0, 0] ++ [1, 0, 0, 0, 0, 0, 0, 0] ∧
      (Ros2.CdrWriter.align 8 Ros2.CdrWriter.new).buf = encapHeader ∧
      ∀ pad, ¬ new.Placed encapHeaderLen v pad :=
  ⟨by decide, by decide, not_placed_body_of_eight (Nat.le_refl _) rfl⟩

end Encoder

/-! ## Byte order -/

inductive ByteOrder where
  | little
  | big
  deriving DecidableEq

def ByteOrder.val : ByteOrder → Bytes → Nat
  | .little => leVal
  | .big => beVal

/-- The byte order the header of a message declares: CDR_LE has scheme 1, CDR_BE scheme 0. -/
def declaredOrder (data : Bytes) : ByteOrder :=
  if u16BEAt data 0 = 0x0001 then .little else .big

namespace Decoder

def readUintIn (o : ByteOrder) (w : Nat) : Reader Nat := fun d => map o.val (take w id) (d.align w)

def withLength {α : Type} (o : ByteOrder) (rest : UInt32 → Reader α) : Reader α := fun d =>
  match map UInt32.ofNat (readUintIn o 4) d with
  | (.error err, d) => (.error err, d)
  | (.ok n, d) => rest n d

def stringRest (n : UInt32) : Reader Str := fun d =>
  if n = 0 then (.ok [], d) else map stripNul (take n.toNat .stringData) d

def bytesRest (n : UInt32) : Reader Bytes := take n.toNat .bytesData

def readIn (o : ByteOrder) : (k : Kind) → Reader k.Val
  | .bool => readBool
  | .uint8 => readUint8
  | .int8 => readInt8
  | .int16 => map (fun v => .ofUInt16 (.ofNat v)) (readUintIn o 2)
  | .uint16 => map .ofNat (readUintIn o 2)
  | .int32 => map (fun v => .ofUInt32 (.ofNat v)) (readUintIn o 4)
  | .uint32 => map .ofNat (readUintIn o 4)
  | .int64 => map (fun v => .ofUInt64 (.ofNat v)) (readUintIn o 8)
  | .uint64 => map .ofNat (readUintIn o 8)
  | .float32 => map .ofNat (readUintIn o 4)
  | .float64 => map .ofNat (readUintIn o 8)
  | .string => withLength o stringRest
  | .bytes => withLength o bytesRest

theorem readIn_little (k : Kind) : readIn .little k = read k := by
  cases k <;> rfl

/-- The bytes of the next aligned integer of `w` bytes, if there are enough of them. -/
def word (w : Nat) (d : Decoder) : Option Bytes :=
  let d := d.align w
  if d.pos + w > d.buf.length then none else some (slice d.buf d.pos (d.pos + w))

/-- The next aligned integer of `w` bytes is the same in both byte orders. -/
def Symmetric (w : Nat) (d : Decoder) : Prop := ∀ b ∈ word w d, b.reverse = b

theorem length_of_word {w : Nat} {d : Decoder} {b : Bytes} (h : word w d = some b) :
    b.length = w := by
  unfold word at h
  dsimp only at h
  split_ifs at h with hshort
  rw [← Option.some.inj h, length_slice (Nat.le_of_not_lt hshort)]
  omega

theorem readUintIn_eq (o : ByteOrder) (w : Nat) (d : Decoder) : readUintIn o w d =
      match word w d with
      | none => (.error (.underrun w (d.align w).pos d.buf.length), d.align w)
      | some b => (.ok (o.val b), ⟨d.buf, (d.align w).pos + w⟩) := by
  unfold readUintIn map take need word
  dsimp only
  split_ifs <;> rfl

theorem leVal_inj {a b : Bytes} (hlen : a.length = b.length) (h : leVal a = leVal b) : a = b := by
  have hmap : a.map UInt8.toNat = b.map UInt8.toNat := by
    refine Nat.ofDigits_inj_of_len_eq (b := 256) (by decide) (by simpa using hlen) ?_ ?_ h
    all_goals
      intro x hx
      obtain ⟨c, -, rfl⟩ := List.mem_map.1 hx
      exact c.toNat_lt
  exact (List.map_inj_right fun _ _ => UInt8.toNat_inj.1).1 hmap

theorem leVal_eq_beVal_iff (b : Bytes) : leVal b = beVal b ↔ b.reverse = b := by
  constructor
  · intro h
    exact (leVal_inj (by simp) h).symm
  · intro h
    rw [beVal, h]

theorem beVal_lt (b : Bytes) : beVal b < 256 ^ b.length := by
  have h := leVal_lt b.reverse
  rwa [length_reverse] at h

theorem map_readUintIn_iff {f : Nat → α} {w : Nat}
    (hf : ∀ a b, a < 256 ^ w → b < 256 ^ w → f a = f b → a = b) (d : Decoder) :
    map f (readUintIn .little w) d = map f (readUintIn .big w) d ↔ Symmetric w d := by
  unfold map Symmetric
  rw [readUintIn_eq, readUintIn_eq]
  cases hword : word w d with
  | none => simp
  | some b =>
    have hlen := length_of_word hword
    have hle := leVal_lt b
    have hbe := beVal_lt b
    rw [hlen] at hle hbe
    simp only [ByteOrder.val, Except.map, Prod.mk.injEq, and_true, Except.ok.injEq,
      Option.mem_some_iff, forall_eq']
    rw [← leVal_eq_beVal_iff]
    exact ⟨hf _ _ hle hbe, congrArg f⟩

theorem withLength_iff {rest : UInt32 → Reader α} (hrest : ∀ n m d, rest n d = rest m d → n = m)
    (d : Decoder) : withLength .little rest d = withLength .big rest d ↔ Symmetric 4 d := by
  unfold withLength map Symmetric
  rw [readUintIn_eq, readUintIn_eq]
  cases hword : word 4 d with
  | none => simp [Except.map]
  | some b =>
    have hlen := length_of_word hword
    have hle := leVal_lt b
    have hbe := beVal_lt b
    rw [hlen] at hle hbe
    simp only [ByteOrder.val, Except.map, Option.mem_some_iff, forall_eq']
    rw [← leVal_eq_beVal_iff]
    constructor
    · intro h
      have hsame := congrArg UInt32.toNat (hrest _ _ _ h)
      rwa [UInt32.toNat_ofNat_of_lt' hle, UInt32.toNat_ofNat_of_lt' hbe] at hsame
    · intro h
      rw [h]

theorem map_take_inj {f : Bytes → α} {wrap : Error → Error} (hwrap : Function.Injective wrap)
    {n m : Nat} {d : Decoder} (h : map f (take n wrap) d = map f (take m wrap) d) : n = m := by
  unfold map take need at h
  split_ifs at h with hn hm hm
  · have herr := hwrap (Except.error.inj (Prod.mk.inj h).1)
    exact (Error.underrun.inj herr).1
  · cases (Prod.mk.inj h).1
  · cases (Prod.mk.inj h).1
  · have hpos := congrArg Decoder.pos (Prod.mk.inj h).2
    dsimp only at hpos
    omega

theorem stringRest_inj (n m : UInt32) (d : Decoder) (h : stringRest n d = stringRest m d) :
    n = m := by
  have hwrap : Function.Injective Error.stringData := fun _ _ => Error.stringData.inj
  have hzero : ∀ {k : UInt32}, k ≠ 0 → map stripNul (take k.toNat .stringData) d ≠ (.ok [], d) := by
    intro k hk heq
    have hpos : k.toNat ≠ 0 := fun h0 => hk (UInt32.toNat_inj.1 h0)
    unfold map take need at heq
    split_ifs at heq
    · cases (Prod.mk.inj heq).1
    · have hsame := congrArg Decoder.pos (Prod.mk.inj heq).2
      dsimp only at hsame
      omega
  unfold stringRest at h
  split_ifs at h with hn hm hm
  · rw [hn, hm]
  · exact absurd h.symm (hzero hm)
  · exact absurd h (hzero hn)
  · exact UInt32.toNat_inj.1 (map_take_inj hwrap h)

theorem bytesRest_inj (n m : UInt32) (d : Decoder) (h : bytesRest n d = bytesRest m d) : n = m := by
  have hwrap : Function.Injective Error.bytesData := fun _ _ => Error.bytesData.inj
  exact UInt32.toNat_inj.1 (map_take_inj (f := fun b => b) hwrap
    (congrArg (fun r : Except Error Bytes × Decoder => (r.1.map fun b => b, r.2)) h))

theorem symmetric_one (d : Decoder) : Symmetric 1 d := by
  intro b hb
  obtain ⟨x, rfl⟩ := length_eq_one_iff.1 (length_of_word hb)
  rfl

theorem ofNat16_inj (a b : Nat) (ha : a < 256 ^ 2) (hb : b < 256 ^ 2)
    (h : UInt16.ofNat a = UInt16.ofNat b) : a = b := by
  have hnat := congrArg UInt16.toNat h
  rwa [UInt16.toNat_ofNat_of_lt' ha, UInt16.toNat_ofNat_of_lt' hb] at hnat

theorem ofNat32_inj (a b : Nat) (ha : a < 256 ^ 4) (hb : b < 256 ^ 4)
    (h : UInt32.ofNat a = UInt32.ofNat b) : a = b := by
  have hnat := congrArg UInt32.toNat h
  rwa [UInt32.toNat_ofNat_of_lt' ha, UInt32.toNat_ofNat_of_lt' hb] at hnat

theorem ofNat64_inj (a b : Nat) (ha : a < 256 ^ 8) (hb : b < 256 ^ 8)
    (h : UInt64.ofNat a = UInt64.ofNat b) : a = b := by
  have hnat := congrArg UInt64.toNat h
  rwa [UInt64.toNat_ofNat_of_lt' ha, UInt64.toNat_ofNat_of_lt' hb] at hnat

theorem read_eq_big_iff (k : Kind) (d : Decoder) :
    read k d = readIn .big k d ↔ Symmetric k.width d := by
  rw [← readIn_little]
  cases k with
  | int16 =>
    exact map_readUintIn_iff (fun a b ha hb h =>
      ofNat16_inj a b ha hb (by simpa using congrArg Int16.toUInt16 h)) d
  | uint16 => exact map_readUintIn_iff ofNat16_inj d
  | int32 =>
    exact map_readUintIn_iff (fun a b ha hb h =>
      ofNat32_inj a b ha hb (by simpa using congrArg Int32.toUInt32 h)) d
  | uint32 => exact map_readUintIn_iff ofNat32_inj d
  | int64 =>
    exact map_readUintIn_iff (fun a b ha hb h =>
      ofNat64_inj a b ha hb (by simpa using congrArg Int64.toUInt64 h)) d
  | uint64 => exact map_readUintIn_iff ofNat64_inj d
  | float32 => exact map_readUintIn_iff ofNat32_inj d
  | float64 => exact map_readUintIn_iff ofNat64_inj d
  | string => exact withLength_iff stringRest_inj d
  | bytes => exact withLength_iff bytesRest_inj d
  | _ => exact iff_of_true rfl (symmetric_one d)

def Reads (C : Kind → Decoder → Prop) (data : Bytes) (ks : List Kind) : Prop :=
  ∀ d, Decoder.new data = .ok d → Run.Along (fun _ d k => C k d) step [] d ks

/-- The decoder accepts both byte orders and reads one. Its reads give what the header declares
exactly if it declares that one, or each integer is the same in both. -/
theorem declared_order_iff (data : Bytes) (ks : List Kind) :
    Reads (fun k d => Decoder.read k d = readIn (declaredOrder data) k d) data ks ↔
      declaredOrder data = .little ∨ Reads (fun k d => Symmetric k.width d) data ks := by
  cases declaredOrder data with
  | little =>
    refine iff_of_true (fun d _ => ?_) (.inl rfl)
    exact Run.along_of_forall (fun _ d k => congrFun (readIn_little k).symm d) _ _ _
  | big =>
    have hstep : ∀ d, Run.Along (fun _ d k => read k d = readIn .big k d) step [] d ks ↔
        Run.Along (fun _ d k => Symmetric k.width d) step [] d ks := fun d =>
      Run.along_congr (fun _ d k => read_eq_big_iff k d) _ _ _
    simp only [Reads, hstep, reduceCtorEq, false_or]

/-- **A big-endian message is read in the other order**: its number 1 comes out as 2^24. -/
theorem big_endian_one :
    let data : Bytes := [0, 0, 0, 0] ++ [0, 0, 0, 1]
    let d : Decoder := ⟨data, 4⟩
    declaredOrder data = .big ∧ new data = .ok d ∧
      (read .uint32 d).1 = .ok (16777216 : UInt32) ∧
      (readIn .big .uint32 d).1 = .ok (1 : UInt32) :=
  ⟨by decide, rfl, rfl, rfl⟩

end Decoder

end GoDDS.Tools.Cdr
