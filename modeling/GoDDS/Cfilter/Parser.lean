import GoDDS.Lib.Descent
import GoDDS.Cfilter.Token

/-!
# Content filters: the parser and the evaluation

`Parse` and `Eval` of `cfilter.go`. Numbers are any linear order, and what `strconv.ParseFloat` and
`json.Unmarshal` do is given: `parseFloat` and `decode`.
-/

namespace GoDDS.Cfilter

open Go Fuel
open Outcome (bind_eq_ok bind_ne_exhausted)

variable {N : Type}

/-- A JSON value, as far as a comparison looks into it. -/
inductive Datum (N : Type) where
  | number (v : N)
  | string (v : Str)
  | other

abbrev Fields (N : Type) := Str → Option (Datum N)

/-- The value of an operand: `any` with a JSON value or a `paramValue` in it. -/
inductive Value (N : Type) where
  | datum (d : Datum N)
  | paramValue (text : Str)

def normalizeParam (parseFloat : Str → Option N) : Value N → Datum N
  | .datum d => d
  | .paramValue text =>
    match parseFloat text with
    | some v => .number v
    | none => .string text

def compareOrdered {T : Type} [DecidableEq T] [LT T] [LE T] [DecidableLT T] [DecidableLE T]
    (l r : T) : Op → Bool
  | .equal => l = r
  | .lessGreater | .bangEqual => l ≠ r
  | .greater => l > r
  | .greaterEqual => l ≥ r
  | .less => l < r
  | .lessEqual => l ≤ r

def compare [LinearOrder N] (parseFloat : Str → Option N) (lv rv : Value N) (op : Op) : Bool :=
  match normalizeParam parseFloat lv, normalizeParam parseFloat rv with
  | .number l, .number r => compareOrdered l r op
  | .string l, .string r => compareOrdered l r op
  | _, _ => false

/-- The closures of `parseOperand`. -/
inductive Operand (N : Type) where
  | field (name : Str)
  | number (v : N)
  | string (v : Str)
  | param (v : Str)
  deriving DecidableEq

def Operand.eval (f : Fields N) : Operand N → Option (Value N)
  | .field name => (f name).map .datum
  | .number v => some (.datum (.number v))
  | .string v => some (.datum (.string v))
  | .param v => some (.paramValue v)

/-- The closures the parser builds, as data. -/
inductive Pred (N : Type) where
  | comparison (left : Operand N) (op : Op) (right : Operand N)
  | not (inner : Pred N)
  | and (l r : Pred N)
  | or (l r : Pred N)
  deriving DecidableEq

def evalComparison [LinearOrder N] (parseFloat : Str → Option N) (f : Fields N)
    (left : Operand N) (op : Op) (right : Operand N) : Bool :=
  match left.eval f, right.eval f with
  | some lv, some rv => compare parseFloat lv rv op
  | _, _ => false

def Pred.eval [LinearOrder N] (parseFloat : Str → Option N) (f : Fields N) : Pred N → Bool
  | .comparison left op right => evalComparison parseFloat f left op right
  | .not inner => !inner.eval parseFloat f
  | .and l r => l.eval parseFloat f && r.eval parseFloat f
  | .or l r => l.eval parseFloat f || r.eval parseFloat f

/-! ## The parser -/

def digitsValue (digits : Str) : Nat := digits.foldl (fun v c => 10 * v + (c.toNat - 0x30)) 0

def atoi (digits : Str) : Option Nat :=
  if digitsValue digits < 2 ^ 63 then some (digitsValue digits) else none

section Parser

variable (parseFloat : Str → Option N) (params : List Str)

def parseOperand : List Token → Outcome Error (Operand N × List Token)
  | .ident name :: ts => .ok (.field name, ts)
  | .number text :: ts =>
    match parseFloat text with
    | none => .error (.invalidNumber text)
    | some v => .ok (.number v, ts)
  | .string text :: ts => .ok (.string text, ts)
  | .param digits :: ts =>
    match atoi digits with
    | none => .error (.invalidParameter digits)
    | some idx =>
      match params[idx]? with
      | none => .error (.parameterOutOfRange idx params.length)
      | some v => .ok (.param v, ts)
  | t :: _ => .error (.expectedOperand t.text)
  | [] => .error (.expectedOperand [])

def parseOp : List Token → Outcome Error (Op × List Token)
  | .op o :: ts => .ok (o, ts)
  | t :: _ => .error (.expectedOperator t.text)
  | [] => .error (.expectedOperator [])

def parseComparison (ts : List Token) : Outcome Error (Pred N × List Token) := do
  let left ← parseOperand parseFloat params ts
  let op ← parseOp left.2
  let right ← parseOperand parseFloat params op.2
  return (.comparison left.1 op.1 right.1, right.2)

def parseRParen (inner : Pred N) : List Token → Outcome Error (Pred N × List Token)
  | .rparen :: ts => .ok (inner, ts)
  | _ => .error .expectedRParen

def Token.isOr : Token → Bool
  | .or _ => true
  | _ => false

def Token.isAnd : Token → Bool
  | .and _ => true
  | _ => false

/-- `parseUnary`. Below a parenthesis it calls `parseOr`, which is a chain of `parseAnd`, which is
one of `parseUnary`. -/
def parseUnary : Nat → Parser Token Error (Pred N)
  | 0, _ => .exhausted
  | n + 1, ts =>
    match ts with
    | .not _ :: ts => do
      let inner ← parseUnary n ts
      return (.not inner.1, inner.2)
    | .lparen :: ts => do
      let inner ← chain Token.isOr .or (chain Token.isAnd .and (parseUnary n) n) n ts
      parseRParen inner.1 inner.2
    | ts => parseComparison parseFloat params ts

def parseAnd (n : Nat) : Parser Token Error (Pred N) :=
  chain Token.isAnd .and (parseUnary parseFloat params n) n

def parseOr (n : Nat) : Parser Token Error (Pred N) :=
  chain Token.isOr .or (parseAnd parseFloat params n) n

structure Expr (N : Type) where
  src : Str
  pred : Pred N
  deriving DecidableEq

def parseEnd (expr : Str) : Pred N × List Token → Outcome Error (Expr N)
  | (pred, []) => .ok ⟨expr, pred⟩
  | (_, t :: _) => .error (.unexpectedToken t.text)

/-- The parser runs on fuel, and has enough of it. -/
def Parse (expr : Str) : Outcome Error (Expr N) :=
  match tokenize expr with
  | .error e => .error e
  | .ok toks => do
    let r ← parseOr parseFloat params (toks.length + 1) toks
    parseEnd expr r

end Parser

inductive Document (N : Type) where
  | malformed
  | null
  | object (fields : Fields N)
  | other

/-- `json.Unmarshal` into a map: `null` leaves the map empty, and anything but an object is an
error. -/
def Document.unmarshal : Document N → Option (Fields N)
  | .malformed | .other => none
  | .null => some fun _ => none
  | .object fields => some fields

def Expr.Eval [LinearOrder N] (parseFloat : Str → Option N) (decode : Str → Document N)
    (e : Expr N) (payload : Str) : Bool :=
  match (decode payload).unmarshal with
  | none => false
  | some fields => e.pred.eval parseFloat fields

/-! ## The parser returns -/

variable {ts : List Token}

section Fuel

variable {parseFloat : Str → Option N} {params : List Str}

theorem parseOperand_length {r : Operand N × List Token}
    (h : parseOperand parseFloat params ts = .ok r) : r.2.length < ts.length := by
  unfold parseOperand at h
  split at h
  · cases h; simp
  · split at h
    · cases h
    · cases h; simp
  · cases h; simp
  · split at h
    · cases h
    · split at h
      · cases h
      · cases h; simp
  · cases h
  · cases h

theorem parseOp_length {r : Op × List Token} (h : parseOp ts = .ok r) : r.2.length < ts.length := by
  unfold parseOp at h
  split at h <;> cases h
  simp

theorem parseComparison_length {r : Pred N × List Token}
    (h : parseComparison parseFloat params ts = .ok r) : r.2.length < ts.length := by
  obtain ⟨left, hleft, h⟩ := bind_eq_ok.1 h
  obtain ⟨op, hop, h⟩ := bind_eq_ok.1 h
  obtain ⟨right, hright, h⟩ := bind_eq_ok.1 h
  cases h
  exact (parseOperand_length hright).trans
    ((parseOp_length hop).trans (parseOperand_length hleft))

theorem parseRParen_length {inner : Pred N} {r : Pred N × List Token}
    (h : parseRParen inner ts = .ok r) : r.2.length < ts.length := by
  unfold parseRParen at h
  split at h <;> cases h
  simp

theorem parseUnary_not (n : Nat) (word : Str) (ts : List Token) :
    parseUnary parseFloat params (n + 1) (.not word :: ts) =
      (parseUnary parseFloat params n ts >>= fun inner => .ok (.not inner.1, inner.2)) := rfl

theorem parseUnary_lparen (n : Nat) (ts : List Token) :
    parseUnary parseFloat params (n + 1) (.lparen :: ts) =
      (parseOr parseFloat params n ts >>= fun inner => parseRParen inner.1 inner.2) := rfl

theorem consumes_parseUnary (n : Nat) : Consumes (parseUnary parseFloat params n) := by
  induction n with
  | zero => intro ts r h; cases h
  | succ n ih =>
    intro ts r h
    unfold parseUnary at h
    split at h
    · obtain ⟨inner, hinner, h⟩ := bind_eq_ok.1 h
      cases h
      exact (ih hinner).trans (by simp)
    · obtain ⟨inner, hinner, h⟩ := bind_eq_ok.1 h
      have hor := (ih.chain n).chain n hinner
      have hparen := parseRParen_length h
      simp only [List.length_cons]
      omega
    · exact parseComparison_length h

theorem parseComparison_ne_exhausted (ts : List Token) :
    parseComparison parseFloat params ts ≠ .exhausted := by
  have hoperand : ∀ ts, parseOperand parseFloat params ts ≠ .exhausted := by
    intro ts
    unfold parseOperand
    repeat' split
    all_goals simp
  have hop : ∀ ts, parseOp ts ≠ .exhausted := by
    intro ts
    unfold parseOp
    split <;> simp
  refine bind_ne_exhausted (hoperand ts) fun left _ => ?_
  refine bind_ne_exhausted (hop _) fun op _ => ?_
  exact bind_ne_exhausted (hoperand _) fun right _ => by simp

theorem parseUnary_ne_exhausted {n : Nat} (hn : ts.length < n) :
    parseUnary parseFloat params n ts ≠ .exhausted := by
  induction n generalizing ts with
  | zero => omega
  | succ n ih =>
    have hunary : Consumes (parseUnary parseFloat params n) := consumes_parseUnary n
    unfold parseUnary
    split
    · rename_i word us
      simp only [List.length_cons] at hn
      exact bind_ne_exhausted (ih (by omega)) fun inner _ => by simp
    · rename_i us
      simp only [List.length_cons] at hn
      have hand : ∀ vs : List Token, vs.length ≤ us.length →
          chain Token.isAnd .and (parseUnary parseFloat params n) n vs ≠ .exhausted := fun vs hvs =>
        chain_ne_exhausted hunary (fun ws hws => ih (by omega)) (by omega)
      refine bind_ne_exhausted (chain_ne_exhausted (hunary.chain n) hand (by omega)) ?_
      intro inner _
      unfold parseRParen
      split <;> simp
    · exact parseComparison_ne_exhausted ts

theorem parseOr_ne_exhausted {n : Nat} (hn : ts.length < n) :
    parseOr parseFloat params n ts ≠ .exhausted := by
  have hunary : Consumes (parseUnary parseFloat params n) := consumes_parseUnary n
  refine chain_ne_exhausted (hunary.chain n) (fun us hus => ?_) (by omega)
  exact chain_ne_exhausted hunary (fun vs hvs => parseUnary_ne_exhausted (by omega)) (by omega)

/-- No text makes the parser run on forever. -/
theorem parse_ne_exhausted (expr : Str) : Parse parseFloat params expr ≠ .exhausted := by
  unfold Parse
  cases tokenize expr with
  | error e => simp
  | ok toks =>
    refine bind_ne_exhausted (parseOr_ne_exhausted (Nat.lt_succ_self _)) fun r _ => ?_
    unfold parseEnd
    split <;> simp

theorem steady_parseUnary : SteadyParser (parseUnary parseFloat params) := by
  intro ts n
  induction n generalizing ts with
  | zero => exact .exhausted _
  | succ n ih =>
    have hchain : ∀ {p q : Parser Token Error (Pred N)} {sep : Token → Bool}
        {node : Pred N → Pred N → Pred N}, (∀ ts, Outcome.Le (p ts) (q ts)) → ∀ ts,
        Outcome.Le (chain sep node p n ts) (chain sep node q (n + 1) ts) :=
      fun h ts => (h ts).bind fun left => chainLoop_le h (Nat.le_succ n) _ _
    show Outcome.Le (parseUnary parseFloat params (n + 1) ts)
      (parseUnary parseFloat params (n + 1 + 1) ts)
    unfold parseUnary
    split
    · exact (ih _).bind fun inner => .refl _
    · exact (hchain (hchain ih) _).bind fun inner => .refl _
    · exact .refl _

theorem steady_parseAnd : SteadyParser (parseAnd parseFloat params) := steady_parseUnary.chain

theorem steady_parseOr : SteadyParser (parseOr parseFloat params) := steady_parseAnd.chain

end Fuel

end GoDDS.Cfilter
