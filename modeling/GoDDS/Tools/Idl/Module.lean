import GoDDS.Tools.Cdr

/-!
# IDL modules

The declarations of `ast.go`, and how the generator looks a name up in them.
-/

namespace GoDDS.Tools.Idl

open Go

inductive Prim where
  | boolean | octet | short | uShort | long | uLong | longLong | uLongLong | float | double
  | string
  deriving DecidableEq

/-- A reference `A::B::Name` is the list of its parts. -/
abbrev RefName := List Str

instance : LawfulBEq RefName := inferInstance

/-- A sequence or array has an element type, an array its size, a reference its name. -/
inductive TypeSpec where
  | prim (p : Prim)
  | sequence (elemType : TypeSpec)
  | array (elemType : TypeSpec) (arraySize : Nat)
  | struct (refName : RefName)
  | enum (refName : RefName)
  deriving DecidableEq

structure Field where
  name : Str
  type : TypeSpec
  key : Bool := false
  deriving DecidableEq

structure Struct where
  name : Str
  fields : List Field
  deriving DecidableEq

structure Enum where
  name : Str
  values : List Str
  deriving DecidableEq

structure Typedef where
  name : Str
  type : TypeSpec
  deriving DecidableEq

inductive Module where
  | mk (name : Str) (typedefs : List Typedef) (enums : List Enum) (structs : List Struct)
      (modules : List Module)

namespace Module

def name : Module → Str
  | mk name _ _ _ _ => name

def typedefs : Module → List Typedef
  | mk _ typedefs _ _ _ => typedefs

def enums : Module → List Enum
  | mk _ _ enums _ _ => enums

def structs : Module → List Struct
  | mk _ _ _ structs _ => structs

def modules : Module → List Module
  | mk _ _ _ _ modules => modules

mutual

def decEq : (a b : Module) → Decidable (a = b)
  | .mk name typedefs enums structs modules, .mk name' typedefs' enums' structs' modules' =>
    have := decEqList modules modules'
    decidable_of_iff (name = name' ∧ typedefs = typedefs' ∧ enums = enums' ∧ structs = structs' ∧
      modules = modules') (by simp)

def decEqList : (as bs : List Module) → Decidable (as = bs)
  | [], [] => isTrue rfl
  | [], _ :: _ => isFalse (by simp)
  | _ :: _, [] => isFalse (by simp)
  | a :: as, b :: bs =>
    have := decEq a b
    have := decEqList as bs
    decidable_of_iff (a = b ∧ as = bs) (by simp)

end

instance : DecidableEq Module := decEq

end Module

section Search

variable {α : Type} (decls : Module → List α) (declName : α → Str)

mutual

/-- Search a module for a declaration by its possibly qualified name. -/
def search : Module → RefName → Option α
  | .mk _ _ _ _ modules, modName :: part :: rest => searchNamed modules modName (part :: rest)
  | .mk nm tds es ss modules, ref =>
    match (decls (.mk nm tds es ss modules)).find? fun d => [declName d] = ref with
    | some d => some d
    | none => searchEach modules ref

/-- A qualified reference descends into the first sub-module of each name. -/
def searchNamed : List Module → Str → RefName → Option α
  | [], _, _ => none
  | sub :: subs, modName, rest =>
    if sub.name = modName then search sub rest else searchNamed subs modName rest

def searchEach : List Module → RefName → Option α
  | [], _ => none
  | sub :: subs, ref =>
    match search sub ref with
    | some d => some d
    | none => searchEach subs ref

end

end Search

/-- The search always starts at the root of the file. -/
def searchStruct : Module → RefName → Option Struct := search Module.structs Struct.name
def searchTypedef : Module → RefName → Option Typedef := search Module.typedefs Typedef.name
def searchEnum : Module → RefName → Option Enum := search Module.enums Enum.name

def bareRefName (ref : RefName) : RefName := ref.getLast?.toList

def resolveTypedef (m : Module) : TypeSpec → TypeSpec
  | .struct ref =>
    match searchTypedef m (bareRefName ref) with
    | none => .struct ref
    | some td => td.type
  | ts => ts

end GoDDS.Tools.Idl
