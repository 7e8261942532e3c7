import GoDDS.Lib.Path
import GoDDS.Tools.Idl.Gen

/-!
# What the generated code does

Go evaluates the operand of `range` before the loop, so it still sees the `_i` of the loop outside
(an array, whose length is known, is not evaluated). Inside, every `[_i]` means the variable of the
innermost loop.
-/

namespace GoDDS.Tools.Idl

open ByteCodec Go Cdr

/-! ## Values -/

/-- A value of a generated type. A nil slice is empty; slices and arrays are listed alike. -/
inductive Value where
  | prim (k : Kind) (x : k.Val)
  | list (elems : List Value)
  | struct (fields : List Value)

inductive Step where
  | field (k : Nat)
  | idx (j : Nat)
  deriving DecidableEq

namespace Value

def as (k : Kind) : Value → Option k.Val
  | prim k' x => if h : k' = k then some (h ▸ x) else none
  | _ => none

@[simp] theorem as_prim (k : Kind) (x : k.Val) : (prim k x).as k = some x := by
  simp [as]

def child : Step → Value → Option Value
  | .field k, struct vs => vs[k]?
  | .idx j, list vs => vs[j]?
  | _, _ => none

def replace : Step → Value → Value → Option Value
  | .field k, x, struct vs => if k < vs.length then some (struct (vs.set k x)) else none
  | .idx j, x, list vs => if j < vs.length then some (list (vs.set j x)) else none
  | _, _, _ => none

@[simp] theorem child_field (k : Nat) (vs : List Value) : (struct vs).child (.field k) = vs[k]? :=
  rfl

@[simp] theorem child_idx (j : Nat) (vs : List Value) : (list vs).child (.idx j) = vs[j]? := rfl

theorem replace_eq_some {s : Step} {x v v' : Value} (h : replace s x v = some v') :
    (∃ k vs, s = .field k ∧ v = struct vs ∧ k < vs.length ∧ v' = struct (vs.set k x)) ∨
      ∃ j vs, s = .idx j ∧ v = list vs ∧ j < vs.length ∧ v' = list (vs.set j x) := by
  cases s <;> cases v <;> simp [replace] at h
  · exact .inl ⟨_, _, rfl, rfl, h.1, h.2.symm⟩
  · exact .inr ⟨_, _, rfl, rfl, h.1, h.2.symm⟩

theorem child_eq_some {s : Step} {v c : Value} (h : child s v = some c) :
    (∃ k vs, s = .field k ∧ v = struct vs ∧ vs[k]? = some c) ∨
      ∃ j vs, s = .idx j ∧ v = list vs ∧ vs[j]? = some c := by
  cases s <;> cases v <;> simp only [child, reduceCtorEq] at h
  · exact .inl ⟨_, _, rfl, rfl, h⟩
  · exact .inr ⟨_, _, rfl, rfl, h⟩

instance : Path.Node Step Value where
  child := child
  replace := replace
  replace_isSome := by
    intro s v c x h
    rcases child_eq_some h with ⟨k, vs, rfl, rfl, hk⟩ | ⟨k, vs, rfl, rfl, hk⟩ <;>
      simp [replace, (List.getElem?_eq_some_iff.1 hk).1]
  child_replace := by
    intro s x v v' h
    rcases replace_eq_some h with ⟨k, vs, rfl, rfl, hk, rfl⟩ | ⟨k, vs, rfl, rfl, hk, rfl⟩ <;>
      simp [hk]
  child_replace_ne := by
    intro s t x v v' hne h
    rcases replace_eq_some h with ⟨k, vs, rfl, rfl, hk, rfl⟩ | ⟨k, vs, rfl, rfl, hk, rfl⟩
    · cases t with
      | field l => simp [List.getElem?_set_ne fun hkl : k = l => hne (hkl ▸ rfl)]
      | idx l => rfl
    · cases t with
      | field l => rfl
      | idx l => simp [List.getElem?_set_ne fun hkl : k = l => hne (hkl ▸ rfl)]
  replace_replace := by
    intro s x y v v' h
    rcases replace_eq_some h with ⟨k, vs, rfl, rfl, hk, rfl⟩ | ⟨k, vs, rfl, rfl, hk, rfl⟩ <;>
      simp [replace]
  replace_child := by
    intro s v c h
    rcases child_eq_some h with ⟨k, vs, rfl, rfl, hk⟩ | ⟨k, vs, rfl, rfl, hk⟩ <;>
      obtain ⟨hlt, rfl⟩ := List.getElem?_eq_some_iff.1 hk <;> simp [replace, hlt]

end Value

namespace GoType

mutual

def zero : GoType → Value
  | prim k => .prim k k.zero
  | slice _ => .list []
  | array size t => .list (List.replicate size t.zero)
  | struct ts => .struct (zeros ts)

def zeros : List GoType → List Value
  | [] => []
  | t :: ts => t.zero :: zeros ts

end

mutual

/-- The values of a type whose strings and sequences are shorter than `2 ^ 32 - 1`. -/
def Holds : GoType → Value → Prop
  | prim k, v => ∃ x : k.Val, v = .prim k x ∧ k.Fits x
  | slice t, v => ∃ vs, v = .list vs ∧ vs.length < 2 ^ 32 - 1 ∧ ∀ x ∈ vs, t.Holds x
  | array size t, v => ∃ vs, v = .list vs ∧ vs.length = size ∧ ∀ x ∈ vs, t.Holds x
  | struct ts, v => ∃ vs, v = .struct vs ∧ HoldsAll ts vs

def HoldsAll : List GoType → List Value → Prop
  | [], vs => vs = []
  | t :: ts, vs => ∃ x xs, vs = x :: xs ∧ t.Holds x ∧ HoldsAll ts xs

end

end GoType

/-! ## Execution -/

def Sel.at (i : Nat) : Sel → Step
  | field k => .field k
  | index => .idx i

def Ref.path (i : Nat) (ref : Ref) : List Step := ref.sels.map (Sel.at i)

@[simp] theorem Ref.path_field (i : Nat) (ref : Ref) (k : Nat) :
    (ref.field k).path i = ref.path i ++ [.field k] := by
  simp [Ref.path, Ref.field, Sel.at]

@[simp] theorem Ref.path_index (i : Nat) (ref : Ref) :
    ref.index.path i = ref.path i ++ [.idx i] := by
  simp [Ref.path, Ref.index, Sel.at]

/-- The variables in scope. Outside a loop the last two are not mentioned. -/
structure Env where
  v : Value
  elem : Value
  i : Nat

def Env.var (env : Env) : Base → Value
  | .v => env.v
  | .elem => env.elem

def Env.get (env : Env) (ref : Ref) : Option Value :=
  Path.get (ref.path env.i) (env.var ref.base)

/-- Run statements of `Marshal`; `none` is a panic. -/
def Enc.exec : Enc → Env → Encoder → Option Encoder
  | .skip, _, e => some e
  | .seq s t, env, e => (s.exec env e).bind (t.exec env)
  | .write k ref, env, e => ((env.get ref).bind (Value.as k)).map fun x => e.write k x
  | .writeLen ref, env, e =>
    match env.get ref with
    | some (.list vs) => some (e.writeUint32 (.ofNat vs.length))
    | _ => none
  | .rangeElem ref body, env, e =>
    match env.get ref with
    | some (.list vs) => vs.foldlM (fun e x => body.exec { env with elem := x } e) e
    | _ => none
  | .rangeArray size _ body, env, e =>
    (List.range size).foldlM (fun e i => body.exec { env with i } e) e
  | .failed _, _, _ => none

inductive Fault where
  | error (err : Error)
  | panic

def assign (p : List Step) (x v : Value) (d : Decoder) : Except Fault (Value × Decoder) :=
  match Path.put p x v with
  | some v => .ok (v, d)
  | none => .error .panic

/-- Run statements of `Unmarshal` while `_i` is `i`. -/
def Dec.exec : Dec → Nat → Value × Decoder → Except Fault (Value × Decoder)
  | .skip, _, s => .ok s
  | .seq a b, i, s => (a.exec i s).bind (b.exec i)
  | .read k dest, i, (v, d) =>
    match d.read k with
    | (.error err, _) => .error (.error err)
    | (.ok x, d) => assign (dest.path i) (.prim k x) v d
  | .make dest elem, i, (v, d) =>
    match d.readUint32, elem with
    | (.error err, _), _ => .error (.error err)
    | (.ok n, d), some t => assign (dest.path i) (.list (List.replicate n.toNat t.zero)) v d
    | _, none => .error .panic
  | .rangeSlice dest body, i, (v, d) =>
    match Path.get (dest.path i) v with
    | some (.list vs) => (List.range vs.length).foldlM (fun s j => body.exec j s) (v, d)
    | _ => .error .panic
  | .rangeArray size _ body, _, s => (List.range size).foldlM (fun s j => body.exec j s) s
  | .failed _, _, _ => .error .panic

namespace Codec

/-- The bytes the encoding statements leave. -/
def Marshal (c : Codec) (v : Value) : Option Bytes :=
  (c.marshal.exec ⟨v, v, 0⟩ .new).map Encoder.buf

def Unmarshal (c : Codec) (t : GoType) (data : Bytes) : Except Fault Value :=
  match Decoder.new data with
  | .error err => .error (.error err)
  | .ok d => (c.unmarshal.exec 0 (t.zero, d)).map Prod.fst

def roundTrip (c : Codec) (t : GoType) (v : Value) : Except Fault Value :=
  match c.Marshal v with
  | none => .error .panic
  | some data => c.Unmarshal t data

end Codec

end GoDDS.Tools.Idl
