import GoDDS.Cfilter.Parser

/-!
# Content filters: what an expression means
-/

namespace GoDDS.Cfilter

open Go Fuel List

variable {N : Type}

/-! ## Formulas -/

inductive Term where
  | field (name : Str)
  | number (text : Str)
  | string (text : Str)
  | param (index : Nat)

/-- A filter as its author thinks of it. -/
inductive Formula where
  | comparison (l : Term) (op : Op) (r : Term)
  | not (φ : Formula)
  | and (φ ψ : Formula)
  | or (φ ψ : Formula)

def Op.Rel {T : Type} [LT T] [LE T] (l r : T) : Op → Prop
  | .equal => l = r
  | .lessGreater | .bangEqual => l ≠ r
  | .greater => r < l
  | .greaterEqual => r ≤ l
  | .less => l < r
  | .lessEqual => l ≤ r

section Meaning

variable (parseFloat : Str → Option N) (params : List Str)

/-- The value of an operand in an object. A parameter that looks like a number is one. -/
def Term.value (f : Fields N) : Term → Option (Datum N)
  | .field name => f name
  | .number text => (parseFloat text).map .number
  | .string text => some (.string text)
  | .param index => params[index]?.map fun text =>
      ((parseFloat text).map Datum.number).getD (.string text)

/-- Both values are numbers, or both strings, and they are in the relation. -/
def Related [LinearOrder N] (op : Op) (l r : Option (Datum N)) : Prop :=
  (∃ x y, l = some (.number x) ∧ r = some (.number y) ∧ op.Rel x y) ∨
    ∃ x y, l = some (.string x) ∧ r = some (.string y) ∧ op.Rel x y

/-- The meaning, given by the values of the operands. -/
def Formula.Holds [LinearOrder N] (f : Fields N) : Formula → Prop
  | .comparison l op r => Related op (l.value parseFloat params f) (r.value parseFloat params f)
  | .not φ => ¬ φ.Holds f
  | .and φ ψ => φ.Holds f ∧ ψ.Holds f
  | .or φ ψ => φ.Holds f ∨ ψ.Holds f

/-- The operand can be written down: names are identifiers, numbers can be converted, parameters
exist. -/
def Term.Expressible : Term → Prop
  | .field name => Identifier name
  | .number text => Numeral text ∧ ∃ v, parseFloat text = some v
  | .string _ => True
  | .param index => index < params.length

def Formula.Expressible : Formula → Prop
  | .comparison l _ r => l.Expressible parseFloat params ∧ r.Expressible parseFloat params
  | .not φ => φ.Expressible
  | .and φ ψ | .or φ ψ => φ.Expressible ∧ ψ.Expressible

end Meaning

/-! ## Writing a formula down -/

inductive Writes : Term → Token → Prop
  | field (name : Str) : Writes (.field name) (.ident name)
  | number (text : Str) : Writes (.number text) (.number text)
  | string (text : Str) : Writes (.string text) (.string text)
  | param {digits : Str} (hne : digits ≠ []) (h : ∀ c ∈ digits, isDigit c = true) :
      Writes (.param (digitsValue digits)) (.param digits)

inductive Level where
  | or
  | and
  | unary

/-- The tokens are the formula at a level of the grammar: what is below the level needs parentheses,
everything else may have them. -/
inductive Prints : Level → Formula → List Token → Prop
  | comparison {l r : Term} {op : Op} {t u : Token} :
      Writes l t → Writes r u → Prints .unary (.comparison l op r) [t, .op op, u]
  | not {φ : Formula} {word : Str} {ts : List Token} :
      toUpper word = str "NOT" → Prints .unary φ ts → Prints .unary (.not φ) (.not word :: ts)
  | paren {φ : Formula} {ts : List Token} :
      Prints .or φ ts → Prints .unary φ (.lparen :: (ts ++ [.rparen]))
  | unary {φ : Formula} {ts : List Token} : Prints .unary φ ts → Prints .and φ ts
  | and {φ ψ : Formula} {word : Str} {ts us : List Token} :
      toUpper word = str "AND" → Prints .and φ ts → Prints .unary ψ us →
      Prints .and (.and φ ψ) (ts ++ .and word :: us)
  | noOr {φ : Formula} {ts : List Token} : Prints .and φ ts → Prints .or φ ts
  | or {φ ψ : Formula} {word : Str} {ts us : List Token} :
      toUpper word = str "OR" → Prints .or φ ts → Prints .and ψ us →
      Prints .or (.or φ ψ) (ts ++ .or word :: us)

section Correct

variable {parseFloat : Str → Option N} {params : List Str}

theorem Writes.valid {l : Term} {t : Token} (h : Writes l t)
    (hl : l.Expressible parseFloat params) : t.Valid := by
  cases h with
  | field name => exact hl
  | number text => exact hl.1
  | string text => trivial
  | param hne hdigits => exact ⟨hne, hdigits⟩

theorem Prints.valid {level : Level} {φ : Formula} {ts : List Token} (h : Prints level φ ts)
    (hφ : φ.Expressible parseFloat params) : ∀ t ∈ ts, t.Valid := by
  induction h with
  | comparison hl hr =>
    intro t ht
    simp only [mem_cons, not_mem_nil, or_false] at ht
    rcases ht with rfl | rfl | rfl
    · exact hl.valid hφ.1
    · trivial
    · exact hr.valid hφ.2
  | not hword _ ih => exact forall_mem_cons.2 ⟨hword, ih hφ⟩
  | paren _ ih =>
    refine forall_mem_cons.2 ⟨trivial, forall_mem_append.2 ⟨ih hφ, ?_⟩⟩
    exact forall_mem_singleton.2 trivial
  | unary _ ih => exact ih hφ
  | and hword _ _ ihl ihr =>
    exact forall_mem_append.2 ⟨ihl hφ.1, forall_mem_cons.2 ⟨hword, ihr hφ.2⟩⟩
  | noOr _ ih => exact ih hφ
  | or hword _ _ ihl ihr =>
    exact forall_mem_append.2 ⟨ihl hφ.1, forall_mem_cons.2 ⟨hword, ihr hφ.2⟩⟩

/-! ## Operands and comparisons -/

theorem parseOperand_writes (hparams : params.length < 2 ^ 63) {l : Term} {t : Token}
    (h : Writes l t) (hl : l.Expressible parseFloat params) :
    ∃ o : Operand N, (∀ rest, parseOperand parseFloat params (t :: rest) = .ok (o, rest)) ∧
      ∀ f, (o.eval f).map (normalizeParam parseFloat) = l.value parseFloat params f := by
  cases h with
  | field name =>
    refine ⟨.field name, fun _ => rfl, fun f => ?_⟩
    show ((f name).map Value.datum).map _ = f name
    cases f name <;> rfl
  | number text =>
    obtain ⟨_, v, hv⟩ := hl
    exact ⟨.number v, fun rest => by simp [parseOperand, hv],
      fun f => by simp [Operand.eval, normalizeParam, Term.value, hv]⟩
  | string text => exact ⟨.string text, fun _ => rfl, fun _ => rfl⟩
  | @param digits hne hdigits =>
    have hlt : digitsValue digits < params.length := hl
    have hatoi : atoi digits = some (digitsValue digits) := by
      rw [atoi, if_pos (hlt.trans hparams)]
    have hget : params[digitsValue digits]? = some params[digitsValue digits] :=
      getElem?_eq_getElem hlt
    refine ⟨.param params[digitsValue digits], fun rest => ?_, fun f => ?_⟩
    · simp only [parseOperand, hatoi, hget]
    · simp only [Operand.eval, Term.value, hget, Option.map_some, normalizeParam]
      cases parseFloat params[digitsValue digits] <;> rfl

theorem parseUnary_writes {l : Term} {t : Token} (h : Writes l t) (n : Nat) (ts : List Token) :
    parseUnary parseFloat params (n + 1) (t :: ts) =
      parseComparison parseFloat params (t :: ts) := by
  cases h <;> rfl

theorem noSep_isAnd_of_isOr {t : Token} (ht : t.isOr) (ts : List Token) :
    NoSep Token.isAnd (t :: ts) := by
  intro u hu
  obtain rfl : t = u := by simpa using hu
  cases t <;> first | rfl | cases ht

variable [LinearOrder N]

theorem compareOrdered_iff {T : Type} [DecidableEq T] [LT T] [LE T] [DecidableLT T] [DecidableLE T]
    (l r : T) (op : Op) : compareOrdered l r op ↔ op.Rel l r := by
  cases op <;> simp [compareOrdered, Op.Rel]

theorem evalComparison_iff (f : Fields N) (left right : Operand N) (op : Op) :
    evalComparison parseFloat f left op right ↔
      Related op ((left.eval f).map (normalizeParam parseFloat))
        ((right.eval f).map (normalizeParam parseFloat)) := by
  unfold evalComparison Related
  cases left.eval f with
  | none => simp
  | some lv =>
    cases right.eval f with
    | none => simp
    | some rv =>
      simp only [compare, Option.map_some]
      cases normalizeParam parseFloat lv <;> cases normalizeParam parseFloat rv <;>
        simp [compareOrdered_iff]

def Denotes (parseFloat : Str → Option N) (params : List Str) (p : Pred N) (φ : Formula) : Prop :=
  ∀ f, p.eval parseFloat f = true ↔ φ.Holds parseFloat params f

theorem reads_comparison (hparams : params.length < 2 ^ 63) {l r : Term} {op : Op} {t u : Token}
    (hl : Writes l t) (hr : Writes r u)
    (hφ : (Formula.comparison l op r).Expressible parseFloat params) :
    ∃ p : Pred N, Denotes parseFloat params p (.comparison l op r) ∧
      ∀ rest, parseComparison parseFloat params (t :: .op op :: u :: rest) = .ok (p, rest) := by
  obtain ⟨left, hleft, hlv⟩ := parseOperand_writes hparams hl hφ.1
  obtain ⟨right, hright, hrv⟩ := parseOperand_writes hparams hr hφ.2
  refine ⟨.comparison left op right, fun f => ?_, fun rest => ?_⟩
  · rw [Pred.eval, evalComparison_iff, hlv, hrv]
    rfl
  · simp [parseComparison, hleft, hright, parseOp]

/-- What tokens are at each level: `parseUnary` reads the closure, the other two come to their loop
with it. -/
def Meant (parseFloat : Str → Option N) (params : List Str) :
    Level → List Token → Pred N → Prop
  | .unary => Reads (parseUnary parseFloat params) fun _ => True
  | .and => Chained Token.isAnd .and (parseUnary parseFloat params) fun _ => True
  | .or => Chained Token.isOr .or (parseAnd parseFloat params) fun rest =>
      True ∧ NoSep Token.isAnd rest

theorem Prints.meant (hparams : params.length < 2 ^ 63) {level : Level} {φ : Formula}
    {ts : List Token} (h : Prints level φ ts) (hφ : φ.Expressible parseFloat params) :
    ∃ p : Pred N, Denotes parseFloat params p φ ∧ Meant parseFloat params level ts p := by
  induction h with
  | comparison hl hr =>
    obtain ⟨p, hp, hreads⟩ := reads_comparison hparams hl hr hφ
    refine ⟨p, hp, fun rest _ => ⟨1, ?_⟩⟩
    exact (parseUnary_writes hl 0 _).trans (hreads rest)
  | not hword _ ih =>
    obtain ⟨p, hp, hreads⟩ := ih hφ
    refine ⟨.not p, fun f => ?_, fun rest hrest => ?_⟩
    · simp [Pred.eval, Formula.Holds, ← hp f]
    · obtain ⟨n, hn⟩ := hreads rest hrest
      refine ⟨n + 1, (parseUnary_not n _ _).trans ?_⟩
      exact Outcome.bind_eq_ok.2 ⟨_, hn, rfl⟩
  | paren _ ih =>
    obtain ⟨p, hp, hchained⟩ := ih hφ
    refine ⟨p, hp, fun rest _ => ?_⟩
    obtain ⟨n, hn⟩ := hchained.reads (.rparen :: rest) ⟨⟨trivial, by simp [NoSep, Token.isAnd]⟩,
      by simp [NoSep, Token.isOr]⟩
    refine ⟨n + 1, ?_⟩
    simp only [cons_append, append_assoc, nil_append, parseUnary_lparen]
    exact Outcome.bind_eq_ok.2 ⟨_, hn, rfl⟩
  | unary _ ih =>
    obtain ⟨p, hp, hreads⟩ := ih hφ
    exact ⟨p, hp, Chained.of_reads steady_parseUnary hreads⟩
  | and hword _ _ ihl ihr =>
    obtain ⟨p, hp, hchained⟩ := ihl hφ.1
    obtain ⟨q, hq, hreads⟩ := ihr hφ.2
    refine ⟨.and p q, fun f => ?_, ?_⟩
    · simp [Pred.eval, Formula.Holds, ← hp f, ← hq f]
    · exact hchained.snoc steady_parseUnary (fun _ _ _ => trivial) hreads rfl
  | noOr _ ih =>
    obtain ⟨p, hp, hchained⟩ := ih hφ
    exact ⟨p, hp, Chained.of_reads steady_parseAnd hchained.reads⟩
  | or hword _ _ ihl ihr =>
    obtain ⟨p, hp, hchained⟩ := ihl hφ.1
    obtain ⟨q, hq, hreads⟩ := ihr hφ.2
    refine ⟨.or p q, fun f => ?_, ?_⟩
    · simp [Pred.eval, Formula.Holds, ← hp f, ← hq f]
    · refine hchained.snoc steady_parseAnd (fun t ts ht => ⟨trivial, ?_⟩) hreads.reads rfl
      exact noSep_isAnd_of_isOr ht ts

/-- However a formula is written down, `Parse` accepts the text, and `Eval` is true of exactly those
JSON objects of which the formula holds. -/
theorem parse_sound (hparams : params.length < 2 ^ 63) {φ : Formula} {ts : List Token} {text : Str}
    (hφ : φ.Expressible parseFloat params) (hprints : Prints .or φ ts) (hspells : Spells ts text)
    (decode : Str → Document N) : ∃ e, Parse parseFloat params text = .ok e ∧ ∀ payload fields,
      decode payload = .object fields →
      (e.Eval parseFloat decode payload = true ↔ φ.Holds parseFloat params fields) := by
  obtain ⟨p, hp, hchained⟩ := hprints.meant hparams hφ
  have hreads := hchained.reads [] ⟨⟨trivial, by simp [NoSep]⟩, by simp [NoSep]⟩
  rw [append_nil] at hreads
  have hor : parseOr parseFloat params (ts.length + 1) ts = .ok (p, []) :=
    hreads.eq_of_ne (steady_parseOr ts) (parseOr_ne_exhausted (Nat.lt_succ_self _))
  refine ⟨⟨text, p⟩, ?_, fun payload fields hobject => ?_⟩
  · rw [Parse, tokenize_spells hspells (hprints.valid hφ)]
    exact Outcome.bind_eq_ok.2 ⟨_, hor, rfl⟩
  · simp only [Expr.Eval, hobject, Document.unmarshal]
    exact hp fields

end Correct

theorem parse_sound_not_and :
    let parseFloat : Str → Option Int := fun text => if text = str "5" then some 5 else none
    let payload := str "\x7b\"s\":\"on\"\x7d"
    let decode : Str → Document Int := fun text =>
      if text = payload then .object fun name => if name = str "s" then some (.string (str "on")) else none
      else .malformed
    ∃ e, Parse parseFloat [str "on"] (str "not x > 5 AND s = %0 ") = .ok e ∧
      e.Eval parseFloat decode payload = true := by
  intro parseFloat payload decode
  let φ : Formula := .and (.not (.comparison (.field (str "x")) .greater (.number (str "5"))))
    (.comparison (.field (str "s")) .equal (.param 0))
  have hzero : Writes (.param 0) (.param (str "0")) :=
    @Writes.param (str "0") (by decide +kernel) (by decide +kernel)
  have hprints : Prints .or φ
      [.not (str "not"), .ident (str "x"), .op .greater, .number (str "5"), .and (str "AND"),
        .ident (str "s"), .op .equal, .param (str "0")] :=
    .noOr (.and (by decide +kernel)
      (.unary (.not (by decide +kernel) (.comparison (.field _) (.number _))))
      (.comparison (.field _) hzero))
  have hx : Identifier (str "x") := ⟨⟨_, _, rfl, rfl, by decide +kernel⟩, by decide +kernel⟩
  have hs : Identifier (str "s") := ⟨⟨_, _, rfl, rfl, by decide +kernel⟩, by decide +kernel⟩
  have hfive : Numeral (str "5") := ⟨_, _, rfl, by decide +kernel, by decide +kernel⟩
  have hφ : φ.Expressible parseFloat [str "on"] := ⟨⟨hx, hfive, 5, rfl⟩, hs, Nat.zero_lt_one⟩
  obtain ⟨e, he, heval⟩ := parse_sound (by decide +kernel) hφ hprints (spells_spaced _) decode
  refine ⟨e, he, (heval payload _ rfl).2 ⟨?_, .inr ⟨str "on", str "on", rfl, rfl, rfl⟩⟩⟩
  rintro (⟨a, b, ha, _⟩ | ⟨a, b, ha, _⟩) <;> cases ha

end GoDDS.Cfilter
