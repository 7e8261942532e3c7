import GoDDS.Tools.Idl.Module

/-!
# The generated statements

The statements `gen.go` writes for `Marshal` and `Unmarshal`, as data (`Enc`, `Dec`).
The recursion follows names: `none` says that the bound on its depth was too small.
-/

namespace GoDDS.Tools.Idl

open Go Cdr

/-! ## The target -/

/-- A step of a reference: `.Name`, by the position of the field in its struct, or `[_i]`. -/
inductive Sel where
  | field (k : Nat)
  | index

/-- The value, or the variable `_elem` of the loop that encodes a sequence. All other loops run over
positions, and their variable is always `_i`. -/
inductive Base where
  | v
  | elem

structure Ref where
  base : Base
  sels : List Sel

namespace Ref

def v : Ref := ⟨.v, []⟩

def elem : Ref := ⟨.elem, []⟩

def field (ref : Ref) (k : Nat) : Ref := ⟨ref.base, ref.sels ++ [.field k]⟩

def index (ref : Ref) : Ref := ⟨ref.base, ref.sels ++ [.index]⟩

end Ref

/-- A Go type, with the names in it looked up. An enum is an `int32`. -/
inductive GoType where
  | prim (k : Kind)
  | slice (elem : GoType)
  | array (size : Nat) (elem : GoType)
  | struct (fields : List GoType)

/-- The struct is not there, or it is being expanded already. -/
inductive Failure where
  | unknownStruct (ref : Ref) (name : RefName)
  | cyclicStruct (ref : Ref) (name : RefName)

inductive Enc where
  | skip
  | seq (s t : Enc)
  /-- `e.Write…(ref)` -/
  | write (k : Kind) (ref : Ref)
  /-- `e.WriteUint32(uint32(len(ref)))` -/
  | writeLen (ref : Ref)
  /-- `for _, _elem := range ref { … }` -/
  | rangeElem (ref : Ref) (body : Enc)
  /-- `for _i := range ref { … }`, where `ref` is an array -/
  | rangeArray (size : Nat) (ref : Ref) (body : Enc)
  | failed (f : Failure)

inductive Dec where
  | skip
  | seq (s t : Dec)
  /-- `if dest, err = d.Read…(); err != nil { return v, err }` -/
  | read (k : Kind) (dest : Ref)
  /-- `if _n, err = d.ReadUint32(); err != nil { return v, err }; dest = make([]elem, _n)` -/
  | make (dest : Ref) (elem : Option GoType)
  /-- `for _i := range dest { … }`, where `dest` is a slice -/
  | rangeSlice (dest : Ref) (body : Dec)
  /-- `for _i := range dest { … }`, where `dest` is an array -/
  | rangeArray (size : Nat) (dest : Ref) (body : Dec)
  | failed (f : Failure)

def Enc.block (parts : List Enc) : Enc := parts.foldr .seq .skip

def Dec.block (parts : List Dec) : Dec := parts.foldr .seq .skip

def Enc.ok : Enc → Bool
  | .seq s t => s.ok && t.ok
  | .rangeElem _ body => body.ok
  | .rangeArray _ _ body => body.ok
  | .failed _ => false
  | _ => true

def Dec.ok : Dec → Bool
  | .seq s t => s.ok && t.ok
  | .rangeSlice _ body => body.ok
  | .rangeArray _ _ body => body.ok
  | .failed _ => false
  | _ => true

/-! ## The generator -/

def Prim.kind : Prim → Kind
  | .boolean => .bool
  | .octet => .uint8
  | .short => .int16
  | .uShort => .uint16
  | .long => .int32
  | .uLong => .uint32
  | .longLong => .int64
  | .uLongLong => .uint64
  | .float => .float32
  | .double => .float64
  | .string => .string

def eachField {α : Type} (gen : TypeSpec → Ref → Option α) (ref : Ref) :
    Nat → List Field → Option (List α)
  | _, [] => some []
  | k, f :: fs =>
    match gen f.type (ref.field k), eachField gen ref (k + 1) fs with
    | some part, some parts => some (part :: parts)
    | _, _ => none

/-- `goType`, with the declaration of a named type looked up at once, so that a type that contains
itself has none. A sequence of octets is a byte slice. -/
def goType (m : Module) : Nat → TypeSpec → Option GoType
  | 0, _ => none
  | depth + 1, ts =>
    match resolveTypedef m ts with
    | .prim p => some (.prim p.kind)
    | .sequence elem =>
      if elem = .prim .octet then some (.prim .bytes) else (goType m depth elem).map .slice
    | .array elem size => (goType m depth elem).map (.array size)
    | .struct name =>
      match searchEnum m name, searchStruct m name with
      | some _, _ => some (.prim .int32)
      | none, none => none
      | none, some s =>
        (eachField (fun ts _ => goType m depth ts) Ref.v 0 s.fields).map .struct
    | .enum _ => some (.prim .int32)

structure Emitter (α : Type) where
  /-- a basic type or an enum -/
  basic : Kind → Ref → α
  /-- the reference to an element, in the loop over a sequence -/
  elemRef : Ref → Ref
  /-- a sequence, given the type and the code of its elements -/
  sequence : Ref → Option GoType → α → α
  /-- an array, given its size and the code of its elements -/
  array : Nat → Ref → α → α
  /-- the fields of a struct -/
  block : List α → α
  failed : Failure → α

/-- The recursion of `encodeExpr` and `decodeExpr`. `visited` are the structs being expanded. -/
def genExpr {α : Type} (em : Emitter α) (m : Module) :
    Nat → List RefName → TypeSpec → Ref → Option α
  | 0, _, _, _ => none
  | depth + 1, visited, ts, ref =>
    match resolveTypedef m ts with
    | .prim p => some (em.basic p.kind ref)
    | .sequence elem =>
      -- the comparison does not see an octet behind an alias
      if elem = .prim .octet then some (em.basic .bytes ref)
      else
        (genExpr em m depth visited elem (em.elemRef ref)).map
          (em.sequence ref (goType m depth elem))
    | .array elem size => (genExpr em m depth visited elem ref.index).map (em.array size ref)
    | .struct name =>
      match searchEnum m name, searchStruct m name with
      | some _, _ => some (em.basic .int32 ref)
      | none, none => some (em.failed (.unknownStruct ref name))
      | none, some s =>
        if name ∈ visited then some (em.failed (.cyclicStruct ref name))
        else (eachField (genExpr em m depth (name :: visited)) ref 0 s.fields).map em.block
    | .enum _ => some (em.basic .int32 ref)

def encoder : Emitter Enc where
  basic := .write
  elemRef _ := .elem
  sequence ref _ body := .seq (.writeLen ref) (.rangeElem ref body)
  array := .rangeArray
  block := .block
  failed := .failed

def decoder : Emitter Dec where
  basic := .read
  elemRef dest := dest.index
  sequence dest elem body := .seq (.make dest elem) (.rangeSlice dest body)
  array := .rangeArray
  block := .block
  failed := .failed

def encodeExpr : Module → Nat → List RefName → TypeSpec → Ref → Option Enc := genExpr encoder

def decodeExpr : Module → Nat → List RefName → TypeSpec → Ref → Option Dec := genExpr decoder

structure Codec where
  marshal : Enc
  unmarshal : Dec

def Codec.ok (c : Codec) : Bool := c.marshal.ok && c.unmarshal.ok

def emitCodec (m : Module) (depth : Nat) (s : Struct) : Option Codec :=
  match eachField (encodeExpr m depth []) .v 0 s.fields,
      eachField (decodeExpr m depth []) .v 0 s.fields with
  | some enc, some dec => some ⟨.block enc, .block dec⟩
  | _, _ => none

def structType (m : Module) (depth : Nat) (s : Struct) : Option GoType :=
  (eachField (fun ts _ => goType m depth ts) Ref.v 0 s.fields).map .struct

end GoDDS.Tools.Idl
