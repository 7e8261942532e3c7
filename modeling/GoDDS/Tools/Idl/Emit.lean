import GoDDS.Lib.Fuel
import GoDDS.Tools.Idl.Module

/-!
# The generated source

`gen.go` as it writes text. `GoDDS.Tools.Idl.Gen` has the same recursion with the statements as
data.
-/

namespace GoDDS.Tools.Idl

open Go Fuel

structure Casing where
  /-- the word with its first rune in upper case -/
  upperFirst : Str → Str
  /-- `strings.ToLower(camelToSnake(s))` -/
  jsonTag : Str → Str

def splitIdent (s : Str) : List Str := if 0x5F ∈ s then s.splitOn 0x5F else [s]

/-- The Go name of an identifier. -/
def toGoName (cs : Casing) (s : Str) : Str :=
  (splitIdent s).flatMap fun p => if p = [] then [] else cs.upperFirst p

def Casing.ascii : Casing where
  upperFirst
    | [] => []
    | c :: s => (if 0x61 ≤ c ∧ c ≤ 0x7A then c - 0x20 else c) :: s
  jsonTag s :=
    let lower (c : UInt8) := if 0x41 ≤ c ∧ c ≤ 0x5A then c + 0x20 else c
    if 0x5F ∈ s then s.map lower
    else s.take 1 |>.map lower |>.append <| (s.drop 1).flatMap fun c =>
      if 0x41 ≤ c ∧ c ≤ 0x5A then [0x5F, lower c] else [lower c]

example : toGoName .ascii (str "vehicle_id") = str "VehicleId" := by decide +kernel

def refText (ref : RefName) : Str := (str "::").intercalate ref

def refGoName (cs : Casing) (ref : RefName) : Str := toGoName cs (refText (bareRefName ref))

def Prim.goType : Prim → Str
  | .boolean => str "bool"
  | .octet => str "uint8"
  | .short => str "int16"
  | .uShort => str "uint16"
  | .long => str "int32"
  | .uLong => str "uint32"
  | .longLong => str "int64"
  | .uLongLong => str "uint64"
  | .float => str "float32"
  | .double => str "float64"
  | .string => str "string"

def Prim.method : Prim → Str
  | .boolean => str "Bool"
  | .octet => str "Uint8"
  | .short => str "Int16"
  | .uShort => str "Uint16"
  | .long => str "Int32"
  | .uLong => str "Uint32"
  | .longLong => str "Int64"
  | .uLongLong => str "Uint64"
  | .float => str "Float32"
  | .double => str "Float64"
  | .string => str "String"

inductive Declaration where
  | typedef (td : Typedef)
  | enum (e : Enum)
  | struct (s : Struct)

mutual

/-- The declarations of a module and those below it, in the order of `emitModule`. -/
def Module.declarations : Module → List Declaration
  | .mk _ typedefs enums structs modules =>
    typedefs.map .typedef ++ enums.map .enum ++ structs.map .struct ++ declarationsEach modules

def declarationsEach : List Module → List Declaration
  | [] => []
  | sub :: subs => sub.declarations ++ declarationsEach subs

end

inductive GoDecl where
  /-- `type name = type` -/
  | typeAlias (name type : Str)
  /-- `type name int32` -/
  | enumType (name : Str)
  /-- `name type = value` -/
  | const (name type : Str) (value : Nat)
  /-- `type name struct { … }`: name, type and JSON name of each field -/
  | structType (name : Str) (fields : List (Str × Str × Str))
  /-- `type name struct{}` with its methods for values of `type` -/
  | codec (name type : Str) (marshal unmarshal keyFields : List Str)
  /-- `func name(…) (*dds.TypedPublisher[type], error) { … }` -/
  | publisher (name type codec : Str)
  /-- `func name(…) (*dds.TypedSubscriber[type], error) { … }` -/
  | subscriber (name type codec : Str)

namespace GoDecl

def name : GoDecl → Str
  | typeAlias name _ => name
  | enumType name => name
  | const name _ _ => name
  | structType name _ => name
  | codec name _ _ _ _ => name
  | publisher name _ _ => name
  | subscriber name _ _ => name

def fieldNames : GoDecl → List Str
  | structType _ fields => fields.map fun f => f.1
  | _ => []

end GoDecl

/-! ## The generator -/

namespace Emit

/-- A result, unless the bound on the depth was too small. -/
abbrev Bounded (α : Type) := Outcome Empty α

abbrev Line := Str × List Str

/-- An unresolved or cyclic struct leaves a message, and the generator goes on before it refuses the
module. -/
def fail (msg : Str) : Line := (str "// " ++ msg, [msg])

structure Style where
  /-- the first word of the messages -/
  verb : Str
  basic : Prim → Str → Str
  bytes : Str → Str
  /-- the reference to an element, in the loop over a sequence -/
  elemRef : Str → Str
  /-- whether the text of a sequence mentions its type -/
  typed : Bool
  /-- a sequence, given the reference, the type and the code of its elements -/
  sequence : Str → Str → Str → Str
  /-- an enum, given the reference and the name of its type -/
  enum : Str → Str → Str

def encoding : Style where
  verb := str "encode"
  basic p ref := str "e.Write" ++ p.method ++ str "(" ++ ref ++ str ")"
  bytes ref := str "e.WriteBytes(" ++ ref ++ str ")"
  elemRef _ := str "_elem"
  typed := false
  sequence ref _ body :=
    str "e.WriteUint32(uint32(len(" ++ ref ++ str "))); for _, _elem := range " ++ ref ++
      str " \x7b " ++ body ++ str " \x7d"
  enum ref _ := str "e.WriteInt32(int32(" ++ ref ++ str "))"

def decoding : Style where
  verb := str "decode"
  basic p dest :=
    str "if " ++ dest ++ str ", err = d.Read" ++ p.method ++
      str "(); err != nil \x7b return v, err \x7d"
  bytes dest := str "if " ++ dest ++ str ", err = d.ReadBytes(); err != nil \x7b return v, err \x7d"
  elemRef dest := dest ++ str "[_i]"
  typed := true
  sequence dest type body :=
    str "\x7b var _n uint32; if _n, err = d.ReadUint32(); err != nil \x7b return v, err \x7d; " ++
      dest ++ str " = make(" ++ type ++ str ", _n); for _i := range " ++ dest ++
      str " \x7b " ++ body ++ str " \x7d \x7d"
  enum dest type :=
    str "\x7b var _ev int32; if _ev, err = d.ReadInt32(); err != nil \x7b return v, err \x7d; " ++
      dest ++ str " = " ++ type ++ str "(_ev) \x7d"

section

variable (cs : Casing) (m : Module)

/-- The Go type of a type. -/
def goType : Nat → TypeSpec → Bounded Str
  | 0, _ => .exhausted
  | depth + 1, ts =>
    match resolveTypedef m ts with
    | .prim p => .ok p.goType
    | .sequence elem => do
      let type ← goType depth elem
      .ok (str "[]" ++ type)
    | .array elem size => do
      let type ← goType depth elem
      .ok (str "[" ++ str (toString size) ++ str "]" ++ type)
    | .struct name => .ok (refGoName cs name)
    | .enum name => .ok (refGoName cs name)

def madeType (style : Style) (depth : Nat) (ts : TypeSpec) : Bounded Str :=
  if style.typed then goType cs m depth ts else .ok []

def block (parts : List Line) : Line :=
  ((str "; ").intercalate (parts.map Prod.fst), parts.flatMap Prod.snd)

/-- The recursion of `encodeExpr` and `decodeExpr`. `visited` are the structs being expanded. -/
def expr (style : Style) : Nat → List RefName → TypeSpec → Str → Bounded Line
  | 0, _, _, _ => .exhausted
  | depth + 1, visited, ts, ref =>
    match resolveTypedef m ts with
    | .prim p => .ok (style.basic p ref, [])
    | .sequence elem =>
      if elem = .prim .octet then .ok (style.bytes ref, [])
      else do
        let type ← madeType cs m style depth (.sequence elem)
        let body ← expr style depth visited elem (style.elemRef ref)
        .ok (style.sequence ref type body.1, body.2)
    | .array elem _ => do
      let body ← expr style depth visited elem (ref ++ str "[_i]")
      .ok (str "for _i := range " ++ ref ++ str " \x7b " ++ body.1 ++ str " \x7d", body.2)
    | .struct name =>
      match searchEnum m name, searchStruct m name with
      | some _, _ => .ok (style.enum ref (refGoName cs name), [])
      | none, none =>
        .ok (fail (style.verb ++ str " " ++ ref ++ str ": unknown struct " ++ refText name))
      | none, some s =>
        if name ∈ visited then
          .ok (fail (style.verb ++ str " " ++ ref ++ str ": cyclic struct " ++ refText name))
        else do
          let parts ← Outcome.each (fun f : Field => expr style depth (name :: visited) f.type
            (ref ++ str "." ++ toGoName cs f.name)) s.fields
          .ok (block parts)
    | .enum name => .ok (style.enum ref (refGoName cs name), [])

def encodeExpr : Nat → List RefName → TypeSpec → Str → Bounded Line := expr cs m encoding

def decodeExpr : Nat → List RefName → TypeSpec → Str → Bounded Line := expr cs m decoding

def encodeField (depth : Nat) (f : Field) : Bounded Line :=
  encodeExpr cs m depth [] f.type (str "v." ++ toGoName cs f.name)

def decodeField (depth : Nat) (f : Field) : Bounded Line :=
  decodeExpr cs m depth [] f.type (str "v." ++ toGoName cs f.name)

def emitTypedef (depth : Nat) (td : Typedef) : Bounded (List GoDecl × List Str) := do
  let type ← goType cs m depth td.type
  .ok ([.typeAlias (toGoName cs td.name) type], [])

def emitEnum (e : Enum) : List GoDecl :=
  let goName := toGoName cs e.name
  .enumType goName :: e.values.mapIdx fun i v => .const (goName ++ toGoName cs v) goName i

def codecName (s : Struct) : Str := toGoName cs s.name ++ str "Codec"

def emitCodec (depth : Nat) (s : Struct) : Bounded (List GoDecl × List Str) := do
  let marshal ← Outcome.each (encodeField cs m depth) s.fields
  let unmarshal ← Outcome.each (decodeField cs m depth) s.fields
  let keyFields := (s.fields.filter (·.key)).map fun f => toGoName cs f.name
  .ok ([.codec (codecName cs s) (toGoName cs s.name) (marshal.map Prod.fst)
      (unmarshal.map Prod.fst) keyFields],
    marshal.flatMap Prod.snd ++ unmarshal.flatMap Prod.snd)

def emitFactories (s : Struct) : List GoDecl :=
  let goName := toGoName cs s.name
  [.publisher (str "New" ++ goName ++ str "Publisher") goName (codecName cs s),
    .subscriber (str "New" ++ goName ++ str "Subscriber") goName (codecName cs s)]

def emitField (depth : Nat) (f : Field) : Bounded (Str × Str × Str) := do
  let type ← goType cs m depth f.type
  .ok (toGoName cs f.name, type, cs.jsonTag f.name)

def emitStruct (depth : Nat) (s : Struct) : Bounded (List GoDecl × List Str) := do
  let fields ← Outcome.each (emitField cs m depth) s.fields
  let codec ← emitCodec cs m depth s
  .ok (.structType (toGoName cs s.name) fields :: codec.1 ++ emitFactories cs s, codec.2)

/-- The declarations a module becomes. -/
def emitDeclaration (depth : Nat) : Declaration → Bounded (List GoDecl × List Str)
  | .typedef td => emitTypedef cs m depth td
  | .enum e => .ok (emitEnum cs e, [])
  | .struct s => emitStruct cs m depth s

def generate (depth : Nat) : Bounded (Except Str (List GoDecl)) := do
  let parts ← Outcome.each (emitDeclaration cs m depth) m.declarations
  .ok (match parts.flatMap Prod.snd with
    | [] => .ok (parts.flatMap Prod.fst)
    | msg :: _ => .error (str "idl: " ++ msg))

end

end Emit

end GoDDS.Tools.Idl
