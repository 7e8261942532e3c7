import Mathlib.Data.FinEnum
import GoDDS.Lib.Descent
import GoDDS.Tools.Idl.Lexer
import GoDDS.Tools.Idl.Module

/-!
# The IDL parser

`parser` of `parser.go`, over the tokens the lexer lists.
-/

namespace GoDDS.Tools.Idl

open Go Fuel List Nat

inductive ParseError where
  /-- `idl: line …: expected …, got …` -/
  | expected (line : Nat) (desc got : Str)
  | unknownUnsigned (line : Nat) (got : Str)
  | invalidArraySize (line : Nat) (got : Str)
  deriving DecidableEq

/-- `strconv.Atoi` where digits are wanted. -/
def atoi (val : Str) : Option Nat :=
  let value := val.foldl (fun v c => 10 * v + (c.toNat - 0x30)) 0
  if (∀ c ∈ val, 0x30 ≤ c ∧ c ≤ 0x39) ∧ val ≠ [] ∧ value < 2 ^ 63 then some value else none

section Parser

variable (eofLine : Nat)

/-- The error at the next token. The end of the list is `tokEOF`, and `eofLine` its line. -/
def unexpected (desc : Str) : List Token → ParseError
  | [] => .expected eofLine desc []
  | t :: _ => .expected t.line desc t.val

def peekIs (kind : TokenKind) : List Token → Bool
  | [] => false
  | t :: _ => t.kind = kind

/-- The next token, if it is of this kind. -/
def expectTok (kind : TokenKind) (desc : Str) : Parser Token ParseError Token
  | [] => .error (unexpected eofLine desc [])
  | t :: ts => if t.kind = kind then .ok (t, ts) else .error (unexpected eofLine desc (t :: ts))

/-! ## Types -/

/-- The types named by one word. -/
def simpleType (val : Str) : Option Prim :=
  if val = str "boolean" then some .boolean
  else if val = str "octet" then some .octet
  else if val = str "float" then some .float
  else if val = str "double" then some .double
  else if val = str "short" then some .short
  else none

def peekLong : List Token → Bool
  | [] => false
  | t :: _ => t.val = str "long"

/-- `long` or `long long`. -/
def parseLong (once twice : Prim) (ts : List Token) : TypeSpec × List Token :=
  if peekLong ts then (.prim twice, ts.tail) else (.prim once, ts)

/-- The bound of a string is read and forgotten. -/
def parseStringBound (ts : List Token) : Outcome ParseError (TypeSpec × List Token) :=
  if peekIs .lAngle ts then do
    let close ← expectTok eofLine .rAngle (str ">") ts.tail.tail
    return (.prim .string, close.2)
  else return (.prim .string, ts)

def parseUnsigned : Parser Token ParseError TypeSpec
  | [] => .error (unexpected eofLine (str "type after 'unsigned'") [])
  | t :: ts =>
    if t.kind ≠ .ident then
      .error (unexpected eofLine (str "type after 'unsigned'") (t :: ts))
    else if t.val = str "short" then .ok (.prim .uShort, ts)
    else if t.val = str "long" then .ok (parseLong .uLong .uLongLong ts)
    else .error (.unknownUnsigned t.line t.val)

def parseSequenceEnd (elem : TypeSpec) (ts : List Token) :
    Outcome ParseError (TypeSpec × List Token) := do
  let close ← expectTok eofLine .rAngle (str ">") (if peekIs .comma ts then ts.tail.tail else ts)
  return (.sequence elem, close.2)

def parseQualified (name : RefName) : Parser Token ParseError TypeSpec
  | [] => .ok (.struct name, [])
  | [t] =>
    if t.kind = .doubleColon then .error (unexpected eofLine (str "name after '::'") [])
    else .ok (.struct name, [t])
  | t :: next :: ts =>
    if t.kind = .doubleColon then
      if next.kind = .ident then parseQualified (name ++ [next.val]) ts
      else .error (unexpected eofLine (str "name after '::'") (next :: ts))
    else .ok (.struct name, t :: next :: ts)

/-- A type, by its first word. -/
def parseTypeSpec : Parser Token ParseError TypeSpec
  | [] => .error (unexpected eofLine (str "type name") [])
  | t :: ts =>
    if t.kind ≠ .ident then .error (unexpected eofLine (str "type name") (t :: ts))
    else if t.val = str "sequence" then
      match ts with
      | [] => .error (unexpected eofLine (str "<") [])
      | open_ :: ts =>
        if open_.kind ≠ .lAngle then .error (unexpected eofLine (str "<") (open_ :: ts))
        else do
          let elem ← parseTypeSpec ts
          parseSequenceEnd eofLine elem.1 elem.2
    else if t.val = str "string" then parseStringBound eofLine ts
    else if t.val = str "long" then .ok (parseLong .long .longLong ts)
    else if t.val = str "unsigned" then parseUnsigned eofLine ts
    else
      match simpleType t.val with
      | some p => .ok (.prim p, ts)
      | none => parseQualified eofLine [t.val] ts

/-! ## Declarations -/

def skipArguments (ts : List Token) : List Token :=
  if peekIs .lBrace ts then (ts.dropWhile (·.kind ≠ .rBrace)).tail else ts

/-- The annotations before a field, for at most the given number of them; whether one is `@key`. -/
def annotations : Nat → Bool → List Token → Bool × List Token
  | 0, isKey, ts => (isKey, ts)
  | n + 1, isKey, ts =>
    if peekIs .atSign ts then
      annotations n (isKey || ts.tail.head?.map Token.val == some (str "key"))
        (skipArguments ts.tail.tail)
    else (isKey, ts)

/-- The dimension behind the name of a field makes its type an array. -/
def parseDimension (elem : TypeSpec) (ts : List Token) :
    Outcome ParseError (TypeSpec × List Token) :=
  if peekIs .lBracket ts then do
    let size ← expectTok eofLine .number (str "array size") ts.tail
    let close ← expectTok eofLine .rBracket (str "]") size.2
    match atoi size.1.val with
    | none => .error (.invalidArraySize size.1.line size.1.val)
    | some n => return (.array elem n, close.2)
  else return (elem, ts)

def parseField (t : Token) (ts : List Token) : Outcome ParseError (Field × List Token) := do
  let annots := annotations (t :: ts).length false (t :: ts)
  let type ← parseTypeSpec eofLine annots.2
  let name ← expectTok eofLine .ident (str "field name") type.2
  let full ← parseDimension eofLine type.1 name.2
  let semi ← expectTok eofLine .semi (str ";") full.2
  return ({ name := name.1.val, type := full.1, key := annots.1 }, semi.2)

def closes (t : Token) : Bool := t.kind = .rBrace

/-- The closing brace and the semicolon behind it. -/
def parseEnd {α : Type} (a : α) (ts : List Token) : Outcome ParseError (α × List Token) := do
  let close ← expectTok eofLine .rBrace (str "\x7d") ts
  let semi ← expectTok eofLine .semi (str ";") close.2
  return (a, semi.2)

def parseStruct : Parser Token ParseError Struct := fun ts => do
  let name ← expectTok eofLine .ident (str "struct name") ts
  let brace ← expectTok eofLine .lBrace (str "\x7b") name.2
  let fields ← manyUntil closes (parseField eofLine) (brace.2.length + 1) [] brace.2
  parseEnd eofLine { name := name.1.val, fields := fields.1 } fields.2

/-- The loop of `parseEnum`: every token is taken, and the identifiers are the values. -/
def enumValues : List Token → List Str × List Token
  | [] => ([], [])
  | t :: ts =>
    if closes t then ([], t :: ts)
    else
      let rest := enumValues ts
      (if t.kind = .ident then t.val :: rest.1 else rest.1, rest.2)

def parseEnum : Parser Token ParseError Enum := fun ts => do
  let name ← expectTok eofLine .ident (str "enum name") ts
  let brace ← expectTok eofLine .lBrace (str "\x7b") name.2
  let values := enumValues brace.2
  parseEnd eofLine { name := name.1.val, values := values.1 } values.2

def parseTypedef : Parser Token ParseError Typedef := fun ts => do
  let underlying ← parseTypeSpec eofLine ts
  let name ← expectTok eofLine .ident (str "typedef alias name") underlying.2
  let semi ← expectTok eofLine .semi (str ";") name.2
  return ({ name := name.1.val, type := underlying.1 }, semi.2)

/-! ## Scopes -/

/-- What a scope holds: declarations and things skipped. -/
inductive Item where
  | module (m : Module)
  | struct (s : Struct)
  | enum (e : Enum)
  | typedef (td : Typedef)
  | skipped

def collect (name : Str) (items : List Item) : Module :=
  .mk name
    (items.filterMap fun | .typedef td => some td | _ => none)
    (items.filterMap fun | .enum e => some e | _ => none)
    (items.filterMap fun | .struct s => some s | _ => none)
    (items.filterMap fun | .module m => some m | _ => none)

def Module.named (name : Str) : Module → Module
  | .mk _ typedefs enums structs modules => .mk name typedefs enums structs modules

def skipSemi (ts : List Token) : List Token := if peekIs .semi ts then ts.tail else ts

/-- An unknown word is skipped up to the next semicolon or closing brace. -/
def skipUnknown (ts : List Token) : List Token :=
  skipSemi (ts.dropWhile fun t => t.kind ≠ .semi && t.kind ≠ .rBrace)

def parseNamedModule (inner : Parser Token ParseError Module) :
    Parser Token ParseError Module := fun ts => do
  let name ← expectTok eofLine .ident (str "module name") ts
  let brace ← expectTok eofLine .lBrace (str "\x7b") name.2
  let m ← inner brace.2
  let close ← expectTok eofLine .rBrace (str "\x7d") m.2
  return (m.1.named name.1.val, skipSemi close.2)

/-- One item of a scope; a token that is no word is skipped by itself. -/
def parseItem (inner : Parser Token ParseError Module) (t : Token) :
    Parser Token ParseError Item := fun ts =>
  if t.kind ≠ .ident then .ok (.skipped, ts)
  else if t.val = str "module" then do
    let m ← parseNamedModule eofLine inner ts
    return (.module m.1, m.2)
  else if t.val = str "struct" then do
    let s ← parseStruct eofLine ts
    return (.struct s.1, s.2)
  else if t.val = str "enum" then do
    let e ← parseEnum eofLine ts
    return (.enum e.1, e.2)
  else if t.val = str "typedef" then do
    let td ← parseTypedef eofLine ts
    return (.typedef td.1, td.2)
  else .ok (.skipped, skipUnknown ts)

/-- The items up to a closing brace. Scopes are read on fuel. -/
def parseModule : Nat → Parser Token ParseError Module
  | 0, _ => .exhausted
  | n + 1, ts => do
    let items ← manyUntil closes (parseItem eofLine (parseModule n)) (n + 1) [] ts
    return (collect [] items.1, items.2)

end Parser

def parseText (u : Unicode) (src : List Char) : Outcome ParseError (Module × List Token) :=
  parseModule (lex u src).2 ((lex u src).1.length + 1) (lex u src).1

def ParseString (u : Unicode) (src : List Char) : Outcome ParseError Module := do
  let r ← parseText u src
  return r.1

/-! ## The parser returns -/

variable {ts : List Token}

section Fuel

variable {eofLine : Nat}

theorem expectTok_eq_ok {kind : TokenKind} {desc : Str} {r : Token × List Token} :
    expectTok eofLine kind desc ts = .ok r ↔ ts = r.1 :: r.2 ∧ r.1.kind = kind := by
  cases ts with
  | nil => simp [expectTok]
  | cons t ts =>
    obtain ⟨t', us⟩ := r
    by_cases hkind : t.kind = kind
    · simp only [expectTok, hkind, if_true, Outcome.ok.injEq, Prod.mk.injEq, List.cons.injEq]
      exact ⟨fun h => ⟨h, h.1 ▸ hkind⟩, fun h => h.1⟩
    · simp only [expectTok, hkind, if_false, reduceCtorEq, List.cons.injEq, false_iff]
      rintro ⟨⟨rfl, _⟩, h⟩
      exact hkind h

theorem within_expectTok (kind : TokenKind) (desc : Str) (ts : List Token) :
    Within (ts.length - 1) (expectTok eofLine kind desc ts) := by
  cases ts with
  | nil => simp [expectTok]
  | cons t ts => by_cases hkind : t.kind = kind <;> simp [expectTok, hkind]

theorem length_dropWhile_le (p : Token → Bool) (ts : List Token) :
    (ts.dropWhile p).length ≤ ts.length :=
  (dropWhile_sublist p).length_le

theorem parseLong_length (once twice : Prim) (ts : List Token) :
    (parseLong once twice ts).2.length ≤ ts.length := by
  by_cases h : peekLong ts = true <;> simp [parseLong, h]

theorem within_parseQualified (name : RefName) (ts : List Token) :
    Within ts.length (parseQualified eofLine name ts) := by
  fun_induction parseQualified eofLine name ts with
  | case4 name t next ts h hnext ih => exact ih.mono (by simp; omega)
  | _ => simp

theorem within_parseStringBound : Within ts.length (parseStringBound eofLine ts) := by
  unfold parseStringBound
  split_ifs with h
  · refine (within_expectTok _ _ _).bind fun close hclose => ?_
    simp only [length_tail] at hclose
    exact within_ok.2 (by omega)
  · simp

theorem within_parseUnsigned : Within ts.length (parseUnsigned eofLine ts) := by
  fun_cases parseUnsigned eofLine ts with
  | case4 t ts _ _ h => exact within_ok.2 (le_succ_of_le (parseLong_length _ _ ts))
  | _ => simp

theorem within_parseSequenceEnd (elem : TypeSpec) (ts : List Token) :
    Within ts.length (parseSequenceEnd eofLine elem ts) := by
  refine (within_expectTok _ _ _).bind fun close hclose => within_ok.2 ?_
  split_ifs at hclose with h
  · simp only [length_tail] at hclose
    omega
  · omega

theorem within_parseTypeSpec : Within (ts.length - 1) (parseTypeSpec eofLine ts) := by
  fun_induction parseTypeSpec eofLine ts with
  | case5 t h h2 o ts h3 ih =>
    refine ih.bind fun elem helem => (within_parseSequenceEnd _ _).mono ?_
    simp only [length_cons]
    omega
  | case6 t ts => exact within_parseStringBound
  | case7 t ts => exact within_ok.2 (parseLong_length _ _ ts)
  | case8 t ts => exact within_parseUnsigned
  | case10 t ts => exact within_parseQualified _ ts
  | _ => simp

theorem skipArguments_length : (skipArguments ts).length ≤ ts.length := by
  have hdrop := length_dropWhile_le (fun t => decide (t.kind ≠ .rBrace)) ts
  unfold skipArguments
  split_ifs with h
  · rw [length_tail]
    omega
  · exact le_refl _

theorem skipSemi_length (ts : List Token) : (skipSemi ts).length ≤ ts.length := by
  by_cases h : peekIs .semi ts = true <;> simp [skipSemi, h]

theorem annotations_length (n : Nat) (isKey : Bool) (ts : List Token) :
    (annotations n isKey ts).2.length ≤ ts.length := by
  induction n generalizing isKey ts with
  | zero => exact le_refl _
  | succ n ih =>
    rw [annotations]
    split_ifs with hat
    · refine (ih _ _).trans ((skipArguments_length).trans ?_)
      simp only [length_tail]
      omega
    · exact le_refl _

theorem within_parseDimension (elem : TypeSpec) (ts : List Token) :
    Within ts.length (parseDimension eofLine elem ts) := by
  unfold parseDimension
  split_ifs with h
  · refine (within_expectTok _ _ _).bind fun size hsize => ?_
    refine (within_expectTok _ _ _).bind fun close hclose => ?_
    simp only [length_tail] at hsize
    cases atoi size.1.val with
    | none => simp
    | some n => exact within_ok.2 (by omega)
  · simp

theorem within_parseField (t : Token) (ts : List Token) :
    Within ts.length (parseField eofLine t ts) := by
  have hannots := annotations_length (t :: ts).length false (t :: ts)
  refine (within_parseTypeSpec).bind fun type htype => ?_
  refine (within_expectTok _ _ _).bind fun name hname => ?_
  refine (within_parseDimension _ _).bind fun full hfull => ?_
  refine (within_expectTok _ _ _).bind fun semi hsemi => within_ok.2 ?_
  simp only [length_cons] at hannots htype
  omega

theorem within_parseEnd {α : Type} (a : α) (ts : List Token) :
    Within ts.length (parseEnd eofLine a ts) := by
  refine (within_expectTok _ _ _).bind fun close hclose => ?_
  refine (within_expectTok _ _ _).bind fun semi hsemi => within_ok.2 ?_
  omega

theorem within_parseStruct (ts : List Token) : Within ts.length (parseStruct eofLine ts) := by
  refine (within_expectTok _ _ _).bind fun name hname => ?_
  refine (within_expectTok _ _ _).bind fun brace hbrace => ?_
  refine (Within.manyUntil (fun t us _ => within_parseField t us) (le_refl _)
    (lt_succ_self _)).bind fun fields hfields => ?_
  exact (within_parseEnd _ _).mono (by omega)

variable (ts)

theorem enumValues_length (ts : List Token) : (enumValues ts).2.length ≤ ts.length := by
  induction ts with
  | nil => exact le_refl _
  | cons t ts ih =>
    rw [enumValues]
    split_ifs with h
    · exact le_refl _
    all_goals exact le_succ_of_le ih

theorem within_parseEnum : Within ts.length (parseEnum eofLine ts) := by
  refine (within_expectTok _ _ _).bind fun name hname => ?_
  refine (within_expectTok _ _ _).bind fun brace hbrace => ?_
  have hvalues := enumValues_length brace.2
  exact (within_parseEnd _ _).mono (by omega)

theorem within_parseTypedef : Within ts.length (parseTypedef eofLine ts) := by
  refine (within_parseTypeSpec).bind fun underlying hunderlying => ?_
  refine (within_expectTok _ _ _).bind fun name hname => ?_
  refine (within_expectTok _ _ _).bind fun semi hsemi => within_ok.2 ?_
  omega

theorem skipUnknown_length : (skipUnknown ts).length ≤ ts.length :=
  (skipSemi_length _).trans (length_dropWhile_le _ ts)

variable {ts}

theorem within_parseNamedModule {inner : Parser Token ParseError Module}
    (hinner : ∀ us : List Token, us.length < ts.length → Within us.length (inner us)) :
    Within ts.length (parseNamedModule eofLine inner ts) := by
  cases ts with
  | nil => simp [parseNamedModule, expectTok]
  | cons t ts =>
    simp only [length_cons] at hinner ⊢
    refine (within_expectTok _ _ _).bind fun name hname => ?_
    refine (within_expectTok _ _ _).bind fun brace hbrace => ?_
    simp only [length_cons] at hname
    refine (hinner _ (by omega)).bind fun m hm => ?_
    refine (within_expectTok _ _ _).bind fun close hclose => within_ok.2 ?_
    exact (skipSemi_length _).trans (by omega)

theorem within_parseItem {inner : Parser Token ParseError Module} (t : Token)
    (hinner : ∀ us : List Token, us.length < ts.length → Within us.length (inner us)) :
    Within ts.length (parseItem eofLine inner t ts) := by
  unfold parseItem
  split_ifs
  · simp
  · exact (within_parseNamedModule hinner).bind fun m hm => within_ok.2 hm
  · exact (within_parseStruct ts).bind fun s hs => within_ok.2 hs
  · exact (within_parseEnum ts).bind fun e he => within_ok.2 he
  · exact (within_parseTypedef ts).bind fun td htd => within_ok.2 htd
  · exact within_ok.2 (skipUnknown_length ts)

theorem within_parseModule {n : Nat} (hn : ts.length < n) :
    Within ts.length (parseModule eofLine n ts) := by
  induction n generalizing ts with
  | zero => omega
  | succ n ih =>
    refine (Within.manyUntil (fun t us hus => ?_) (le_refl _) hn).bind fun items hitems =>
      within_ok.2 hitems
    exact within_parseItem t fun vs hvs => ih (by omega)

theorem parseString_ne_exhausted (u : Unicode) (src : List Char) : ParseString u src ≠ .exhausted :=
  Outcome.bind_ne_exhausted (within_parseModule (lt_succ_self _)).1 fun _ _ => by simp

end Fuel

theorem length_of_peekIs {kind : TokenKind} (h : peekIs kind ts) : 0 < ts.length := by
  cases ts with
  | nil => cases h
  | cons t ts => exact Nat.succ_pos _

theorem skipArguments_lt (h : peekIs .atSign ts) : (skipArguments ts.tail.tail).length < ts.length := by
  have hpos := length_of_peekIs h
  have hskip : (skipArguments ts.tail.tail).length ≤ _ := skipArguments_length
  rw [length_tail, length_tail] at hskip
  omega

theorem peekIs_annotations {n : Nat} (hn : ts.length ≤ n) (isKey : Bool) :
    peekIs .atSign (annotations n isKey ts).2 = false := by
  induction n generalizing ts isKey with
  | zero =>
    obtain rfl := length_eq_zero_iff.1 (Nat.le_zero.1 hn)
    rfl
  | succ n ih =>
    rw [annotations]
    split_ifs with hat
    · exact ih (by have := skipArguments_lt hat; omega) _
    · exact Bool.eq_false_of_not_eq_true hat

/-- Every round of the lexer takes a character and every iteration of a loop of the parser a token,
so none of them is cut short by its bound, and `ParseString` returns. -/
theorem parseString_returns (u : Unicode) (src : List Char) :
    ((∃ m, ParseString u src = .ok m) ∨ ∃ e, ParseString u src = .error e) ∧
      (∀ n, src.length ≤ n → lexFrom u n src 1 = lex u src) ∧
      (∀ c s line, (scan u c s line).2.1.length < (c :: s).length) ∧
      ∀ (eofLine : Nat) (t : Token) (ts : List Token),
        (∀ f us, parseField eofLine t ts = .ok (f, us) → us.length < (t :: ts).length) ∧
        (∀ n item us, ts.length ≤ n → parseItem eofLine (parseModule eofLine n) t ts = .ok (item, us) →
          us.length < (t :: ts).length) ∧
        (peekIs .atSign ts → (skipArguments ts.tail.tail).length < ts.length) ∧
        peekIs .atSign (annotations (t :: ts).length false (t :: ts)).2 = false := by
  refine ⟨?_, fun n hn => lexFrom_eq hn 1, fun c s line => Nat.lt_succ_of_le (scan_length c s line),
    fun eofLine t ts => ⟨fun f us h => ?_, fun n item us hn h => ?_, skipArguments_lt,
      peekIs_annotations le_rfl false⟩⟩
  · have hreturns := parseString_ne_exhausted u src
    cases h : ParseString u src with
    | ok m => exact .inl ⟨m, rfl⟩
    | error e => exact .inr ⟨e, rfl⟩
    | exhausted => exact absurd h hreturns
  · exact Nat.lt_succ_of_le ((within_parseField t ts).2 _ h)
  · exact Nat.lt_succ_of_le
      ((within_parseItem t fun vs hvs => within_parseModule (by omega)).2 _ h)

end GoDDS.Tools.Idl
