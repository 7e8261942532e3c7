import GoDDS.Lib.Go

/-!
# The CDR encoder and decoder

`tools/cdr`. Floating-point values are their bits.
-/

namespace GoDDS.Tools.Cdr

open ByteCodec Go List UInt32

def encapHeader : Bytes := [0x00, 0x01, 0x00, 0x00]

def encapHeaderLen : Nat := 4

/-- The buffer starts with the encapsulation header. -/
structure Encoder where
  buf : Bytes

def padding (n len : Nat) : Nat := (n - len % n) % n

namespace Encoder

def new : Encoder := ⟨encapHeader⟩

/-- A value is padded to a multiple of its own size. -/
def align (n : Nat) (e : Encoder) : Encoder :=
  ⟨e.buf ++ List.replicate (padding n e.buf.length) 0⟩

def writeUint (w v : Nat) (e : Encoder) : Encoder := ⟨(e.align w).buf ++ le w v⟩

def writeBool (v : Bool) (e : Encoder) : Encoder := ⟨e.buf ++ [if v then 1 else 0]⟩
def writeUint8 (v : UInt8) (e : Encoder) : Encoder := ⟨e.buf ++ [v]⟩
def writeInt8 (v : Int8) (e : Encoder) : Encoder := ⟨e.buf ++ [v.toUInt8]⟩
def writeInt16 (v : Int16) : Encoder → Encoder := writeUint 2 v.toUInt16.toNat
def writeUint16 (v : UInt16) : Encoder → Encoder := writeUint 2 v.toNat
def writeInt32 (v : Int32) : Encoder → Encoder := writeUint 4 v.toUInt32.toNat
def writeUint32 (v : UInt32) : Encoder → Encoder := writeUint 4 v.toNat
def writeInt64 (v : Int64) : Encoder → Encoder := writeUint 8 v.toUInt64.toNat
def writeUint64 (v : UInt64) : Encoder → Encoder := writeUint 8 v.toNat
def writeFloat32 (bits : UInt32) : Encoder → Encoder := writeUint 4 bits.toNat
def writeFloat64 (bits : UInt64) : Encoder → Encoder := writeUint 8 bits.toNat

def writeString (s : Str) (e : Encoder) : Encoder :=
  ⟨(e.writeUint 4 (s.length + 1)).buf ++ s ++ [0]⟩

def writeBytes (b : Bytes) (e : Encoder) : Encoder := ⟨(e.writeUint 4 b.length).buf ++ b⟩

end Encoder

/-! ## Decoder -/

inductive Error where
  | tooShort (have_ : Nat)
  | unsupportedScheme (scheme : UInt16)
  | underrun (need offset have_ : Nat)
  | stringData (err : Error)
  | bytesData (err : Error)

structure Decoder where
  buf : Bytes
  pos : Nat

abbrev Reader (α : Type) := Decoder → Except Error α × Decoder

namespace Decoder

def new (data : Bytes) : Except Error Decoder :=
  if data.length < encapHeaderLen then .error (.tooShort data.length)
  else
    let scheme := u16BEAt data 0
    if scheme ≠ 0x0001 ∧ scheme ≠ 0x0000 then .error (.unsupportedScheme scheme)
    else .ok ⟨data, encapHeaderLen⟩

def remaining (d : Decoder) : Int := d.buf.length - d.pos

def align (n : Nat) (d : Decoder) : Decoder := { d with pos := d.pos + padding n d.pos }

def need (n : Nat) (d : Decoder) : Option Error :=
  if d.pos + n > d.buf.length then some (.underrun n d.pos d.buf.length) else none

/-- Take the next `n` bytes, or report the error as `wrap` words it. -/
def take (n : Nat) (wrap : Error → Error) : Reader Bytes := fun d =>
  match d.need n with
  | some err => (.error (wrap err), d)
  | none => (.ok (slice d.buf d.pos (d.pos + n)), { d with pos := d.pos + n })

def map {α β : Type} (f : α → β) (r : Reader α) : Reader β := fun d => ((r d).1.map f, (r d).2)

def readUint (w : Nat) : Reader Nat := fun d => map leVal (take w id) (d.align w)

def readUint8 : Reader UInt8 := map (fun b => b.headD 0) (take 1 id)
def readBool : Reader Bool := map (· ≠ 0) readUint8
def readInt8 : Reader Int8 := map Int8.ofUInt8 readUint8
def readInt16 : Reader Int16 := map (fun v => .ofUInt16 (.ofNat v)) (readUint 2)
def readUint16 : Reader UInt16 := map .ofNat (readUint 2)
def readInt32 : Reader Int32 := map (fun v => .ofUInt32 (.ofNat v)) (readUint 4)
def readUint32 : Reader UInt32 := map .ofNat (readUint 4)
def readInt64 : Reader Int64 := map (fun v => .ofUInt64 (.ofNat v)) (readUint 8)
def readUint64 : Reader UInt64 := map .ofNat (readUint 8)
def readFloat32 : Reader UInt32 := readUint32
def readFloat64 : Reader UInt64 := readUint64

def stripNul (raw : Bytes) : Str := if raw.getLast? = some 0 then raw.dropLast else raw

def readString : Reader Str := fun d =>
  match d.readUint32 with
  | (.error err, d) => (.error err, d)
  | (.ok n, d) => if n = 0 then (.ok [], d) else map stripNul (take n.toNat .stringData) d

def readBytes : Reader Bytes := fun d =>
  match d.readUint32 with
  | (.error err, d) => (.error err, d)
  | (.ok n, d) => take n.toNat .bytesData d

end Decoder

/-! ## Typed writes and reads -/

inductive Kind where
  | bool | uint8 | int8 | int16 | uint16 | int32 | uint32 | int64 | uint64 | float32 | float64
  | string | bytes
  deriving DecidableEq

def Kind.Val : Kind → Type
  | .bool => Bool
  | .uint8 => UInt8
  | .int8 => Int8
  | .int16 => Int16
  | .uint16 => UInt16
  | .int32 => Int32
  | .uint32 => UInt32
  | .int64 => Int64
  | .uint64 => UInt64
  | .float32 => UInt32
  | .float64 => UInt64
  | .string => Str
  | .bytes => Bytes

def Kind.zero : (k : Kind) → k.Val
  | .bool => false
  | .uint8 => (0 : UInt8)
  | .int8 => (0 : Int8)
  | .int16 => (0 : Int16)
  | .uint16 => (0 : UInt16)
  | .int32 => (0 : Int32)
  | .uint32 => (0 : UInt32)
  | .int64 => (0 : Int64)
  | .uint64 => (0 : UInt64)
  | .float32 => (0 : UInt32)
  | .float64 => (0 : UInt64)
  | .string => ([] : Str)
  | .bytes => ([] : Bytes)

def Encoder.write : (k : Kind) → k.Val → Encoder → Encoder
  | .bool => writeBool
  | .uint8 => writeUint8
  | .int8 => writeInt8
  | .int16 => writeInt16
  | .uint16 => writeUint16
  | .int32 => writeInt32
  | .uint32 => writeUint32
  | .int64 => writeInt64
  | .uint64 => writeUint64
  | .float32 => writeFloat32
  | .float64 => writeFloat64
  | .string => writeString
  | .bytes => writeBytes

def Decoder.read : (k : Kind) → Reader k.Val
  | .bool => readBool
  | .uint8 => readUint8
  | .int8 => readInt8
  | .int16 => readInt16
  | .uint16 => readUint16
  | .int32 => readInt32
  | .uint32 => readUint32
  | .int64 => readInt64
  | .uint64 => readUint64
  | .float32 => readFloat32
  | .float64 => readFloat64
  | .string => readString
  | .bytes => readBytes

/-- The size of the integer a write starts with: the value, or the length of a string or a byte
sequence. -/
def Kind.width : Kind → Nat
  | .bool | .uint8 | .int8 => 1
  | .int16 | .uint16 => 2
  | .int32 | .uint32 | .float32 | .string | .bytes => 4
  | .int64 | .uint64 | .float64 => 8

/-- The bytes of a value, without the padding in front of them. -/
def Kind.image : (k : Kind) → k.Val → Bytes
  | .bool, (v : Bool) => [if v then 1 else 0]
  | .uint8, (v : UInt8) => [v]
  | .int8, (v : Int8) => [v.toUInt8]
  | .int16, (v : Int16) => le 2 v.toUInt16.toNat
  | .uint16, (v : UInt16) => le 2 v.toNat
  | .int32, (v : Int32) => le 4 v.toUInt32.toNat
  | .uint32, (v : UInt32) | .float32, (v : UInt32) => le 4 v.toNat
  | .int64, (v : Int64) => le 8 v.toUInt64.toNat
  | .uint64, (v : UInt64) | .float64, (v : UInt64) => le 8 v.toNat
  | .string, (s : Str) => le 4 (s.length + 1) ++ s ++ [0]
  | .bytes, (b : Bytes) => le 4 b.length ++ b

/-- The value fits its length field: strings and byte sequences are shorter than `2 ^ 32 - 1`. -/
def Kind.Fits : (k : Kind) → k.Val → Prop
  | .string, s => List.length (α := UInt8) s < 2 ^ 32 - 1
  | .bytes, b => List.length (α := UInt8) b < 2 ^ 32 - 1
  | _, _ => True

/-! ## Reading back what was written -/

namespace Encoder

@[simp] theorem length_align (n : Nat) (e : Encoder) :
    (e.align n).buf.length = e.buf.length + padding n e.buf.length := by
  simp [align]

/-- A write pads the buffer to the width of the type and appends the image of the value. -/
theorem write_eq (k : Kind) (x : k.Val) (e : Encoder) :
    (e.write k x).buf = (e.align k.width).buf ++ k.image x := by
  have hbyte : e.buf = (e.align 1).buf := by
    simp [align, padding, Nat.mod_one]
  have hstring : ∀ s : Str, (e.writeString s).buf =
      (e.align 4).buf ++ (le 4 (s.length + 1) ++ s ++ [0]) := fun s => by
    simp [writeString, writeUint]
  cases k with
  | bool => exact congrArg (· ++ Kind.bool.image x) hbyte
  | uint8 => exact congrArg (· ++ Kind.uint8.image x) hbyte
  | int8 => exact congrArg (· ++ Kind.int8.image x) hbyte
  | string => exact hstring x
  | bytes => exact append_assoc _ _ _
  | _ => rfl

theorem buf_isPrefix_write (k : Kind) (x : k.Val) (e : Encoder) : e.buf <+: (e.write k x).buf := by
  rw [write_eq, align, append_assoc]
  exact prefix_append _ _

end Encoder

variable {buf : Bytes}

namespace Decoder

theorem take_here (a b : Bytes) (wrap : Error → Error) (h : a ++ b <+: buf) :
    take b.length wrap ⟨buf, a.length⟩ = (.ok b, ⟨buf, (a ++ b).length⟩) := by
  obtain ⟨rest, rfl⟩ := h
  have hneed : need b.length ⟨a ++ b ++ rest, a.length⟩ = none := by
    simp [need]
  have hslice : slice (a ++ b ++ rest) a.length (a.length + b.length) = b := by
    rw [append_assoc, slice_skip (Nat.le_refl _), Nat.sub_self, slice_here (by omega)]
  simp only [take, hneed, hslice, length_append]

theorem readUint_writeUint (w v : Nat) (e : Encoder) (h : (e.writeUint w v).buf <+: buf) :
    readUint w ⟨buf, e.buf.length⟩ = (.ok (v % 256 ^ w), ⟨buf, (e.writeUint w v).buf.length⟩) := by
  have htake := take_here (e.align w).buf (le w v) id h
  have hpos : align w ⟨buf, e.buf.length⟩ = ⟨buf, (e.align w).buf.length⟩ := by
    simp [align]
  rw [length_le] at htake
  simp only [readUint, hpos, map, htake, Except.map, leVal_le]
  rfl

theorem stripNul_append_nul (s : Str) : stripNul (s ++ [0]) = s := by
  simp [stripNul]

theorem readUint8_append (v : UInt8) (e : Encoder) (h : e.buf ++ [v] <+: buf) :
    readUint8 ⟨buf, e.buf.length⟩ = (.ok v, ⟨buf, (e.buf ++ [v]).length⟩) := by
  have htake := take_here e.buf [v] id h
  simp only [length_singleton] at htake
  simp [readUint8, map, htake, Except.map]

theorem readUint32_writeUint (n : Nat) (hn : n < 2 ^ 32) (e : Encoder)
    (h : (e.writeUint 4 n).buf <+: buf) : readUint32 ⟨buf, e.buf.length⟩ =
      (.ok (.ofNat n), ⟨buf, (e.writeUint 4 n).buf.length⟩) := by
  have hmod : n % 256 ^ 4 = n := Nat.mod_eq_of_lt (by norm_num at hn ⊢; exact hn)
  simp only [readUint32, map, readUint_writeUint 4 n e h, Except.map, hmod]

theorem readString_writeString (s : Str) (hs : s.length < 2 ^ 32 - 1) (e : Encoder)
    (h : (e.writeString s).buf <+: buf) :
    readString ⟨buf, e.buf.length⟩ = (.ok s, ⟨buf, (e.writeString s).buf.length⟩) := by
  have hbuf : (e.writeString s).buf = (e.writeUint 4 (s.length + 1)).buf ++ (s ++ [0]) :=
    append_assoc _ _ _
  rw [hbuf] at h ⊢
  have hlen := readUint32_writeUint (s.length + 1) (by omega) e
    ((prefix_append _ _).trans h)
  have hnat : (ofNat (s.length + 1)).toNat = (s ++ [0]).length := by
    rw [toNat_ofNat_of_lt' (by show _ < 4294967296; omega), length_append,
      length_singleton]
  have hpos : ofNat (s.length + 1) ≠ 0 := by
    intro hz
    rw [hz, length_append, length_singleton] at hnat
    simp at hnat
  have htake := take_here (e.writeUint 4 (s.length + 1)).buf (s ++ [0]) .stringData h
  simp only [readString, hlen, if_neg hpos, map, hnat, htake, Except.map, stripNul_append_nul]

theorem readBytes_writeBytes (b : Bytes) (hb : b.length < 2 ^ 32 - 1) (e : Encoder)
    (h : (e.writeBytes b).buf <+: buf) :
    readBytes ⟨buf, e.buf.length⟩ = (.ok b, ⟨buf, (e.writeBytes b).buf.length⟩) := by
  have hlen := readUint32_writeUint b.length (by omega) e ((prefix_append _ _).trans h)
  have hnat : (ofNat b.length).toNat = b.length :=
    toNat_ofNat_of_lt' (by show _ < 4294967296; omega)
  have htake := take_here (e.writeUint 4 b.length).buf b .bytesData h
  simp only [readBytes, hlen, hnat, htake]
  rfl

theorem map_readUint_writeUint {α : Type} (f : Nat → α) (w v : Nat) (e : Encoder)
    (h : (e.writeUint w v).buf <+: buf) (x : α) (hf : f (v % 256 ^ w) = x) :
    map f (readUint w) ⟨buf, e.buf.length⟩ = (.ok x, ⟨buf, (e.writeUint w v).buf.length⟩) := by
  simp only [map, readUint_writeUint w v e h, Except.map, hf]

theorem ofNat_toNat_mod_16 (v : UInt16) : UInt16.ofNat (v.toNat % 256 ^ 2) = v := by
  have hmod : v.toNat % 256 ^ 2 = v.toNat := Nat.mod_eq_of_lt v.toNat_lt
  rw [hmod, UInt16.ofNat_toNat]

theorem ofNat_toNat_mod_32 (v : UInt32) : UInt32.ofNat (v.toNat % 256 ^ 4) = v := by
  have hmod : v.toNat % 256 ^ 4 = v.toNat := Nat.mod_eq_of_lt v.toNat_lt
  rw [hmod, UInt32.ofNat_toNat]

theorem ofNat_toNat_mod_64 (v : UInt64) : UInt64.ofNat (v.toNat % 256 ^ 8) = v := by
  have hmod : v.toNat % 256 ^ 8 = v.toNat := Nat.mod_eq_of_lt v.toNat_lt
  rw [hmod, UInt64.ofNat_toNat]

/-- In any buffer that extends what an encoder holds after a write, the typed read at the position
of that write returns the value written and moves to where the encoder stood after it. -/
theorem read_write {k : Kind} (x : k.Val) (hx : k.Fits x) (e : Encoder)
    (h : (e.write k x).buf <+: buf) :
    read k ⟨buf, e.buf.length⟩ = (.ok x, ⟨buf, (e.write k x).buf.length⟩) := by
  cases k with
  | bool =>
    have hread := readUint8_append _ e h
    cases x <;> simp only [read, readBool, map, hread, Except.map] <;> rfl
  | uint8 => exact readUint8_append x e h
  | int8 =>
    have hread := readUint8_append _ e h
    simp only [read, readInt8, map, hread, Except.map]
    rfl
  | int16 =>
    exact map_readUint_writeUint _ 2 _ e h x (congrArg Int16.ofUInt16 (ofNat_toNat_mod_16 _))
  | uint16 => exact map_readUint_writeUint _ 2 _ e h x (ofNat_toNat_mod_16 x)
  | int32 =>
    exact map_readUint_writeUint _ 4 _ e h x (congrArg Int32.ofUInt32 (ofNat_toNat_mod_32 _))
  | int64 =>
    exact map_readUint_writeUint _ 8 _ e h x (congrArg Int64.ofUInt64 (ofNat_toNat_mod_64 _))
  | uint64 => exact map_readUint_writeUint _ 8 _ e h x (ofNat_toNat_mod_64 x)
  | float64 => exact map_readUint_writeUint _ 8 _ e h x (ofNat_toNat_mod_64 x)
  | string => exact readString_writeString x hx e h
  | bytes => exact readBytes_writeBytes x hx e h
  | _ => exact map_readUint_writeUint _ 4 _ e h x (ofNat_toNat_mod_32 x)

end Decoder

end GoDDS.Tools.Cdr
