import GoDDS.Lib.Go

/-!
# Content filters: the tokenizer

`tokenize` of `cfilter.go`, one round of its loop after the other (`scan`).
-/

namespace GoDDS.Cfilter

open Go List

inductive Op where
  | equal
  | lessGreater
  | bangEqual
  | greater
  | greaterEqual
  | less
  | lessEqual
  deriving DecidableEq

def Op.text : Op → Str
  | .equal => str "="
  | .lessGreater => str "<>"
  | .bangEqual => str "!="
  | .greater => str ">"
  | .greaterEqual => str ">="
  | .less => str "<"
  | .lessEqual => str "<="

/-- A string has its quotes removed, a parameter the percent sign; a keyword keeps its letters. -/
inductive Token where
  | ident (name : Str)
  | number (text : Str)
  | string (text : Str)
  | param (digits : Str)
  | op (o : Op)
  | and (word : Str)
  | or (word : Str)
  | not (word : Str)
  | lparen
  | rparen

def Token.text : Token → Str
  | .ident s | .number s | .string s | .param s | .and s | .or s | .not s => s
  | .op o => o.text
  | .lparen => str "("
  | .rparen => str ")"

/-- Why `Parse` refuses an expression; every message also has the expression. -/
inductive Error where
  | unterminatedString
  | malformedParameter
  | unexpectedCharacter (c : UInt8)
  | expectedRParen
  | expectedOperator (got : Str)
  | invalidNumber (text : Str)
  | invalidParameter (digits : Str)
  | parameterOutOfRange (index have_ : Nat)
  | expectedOperand (got : Str)
  | unexpectedToken (text : Str)
  deriving DecidableEq

/-! ## The tokenizer -/

def isBlank (c : UInt8) : Bool := c = 0x20 || c = 0x09 || c = 0x0A || c = 0x0D

def isDigit (c : UInt8) : Bool := 0x30 ≤ c && c ≤ 0x39

def isIdentStart (c : UInt8) : Bool :=
  c = 0x5F || (0x61 ≤ c && c ≤ 0x7A) || (0x41 ≤ c && c ≤ 0x5A)

def isIdentPart (c : UInt8) : Bool := isIdentStart c || isDigit c

def isNumberPart (c : UInt8) : Bool := isDigit c || c = 0x2E

def toUpperByte (c : UInt8) : UInt8 := if 0x61 ≤ c ∧ c ≤ 0x7A then c - 0x20 else c

def toUpper (word : Str) : Str := word.map toUpperByte

def word (w : Str) : Token :=
  if toUpper w = str "AND" then .and w
  else if toUpper w = str "OR" then .or w
  else if toUpper w = str "NOT" then .not w
  else .ident w

def quote : UInt8 := 0x27

/-- The loop over a string, after its opening quote: the text and what follows the closing quote. -/
def scanString : Str → Option (Str × Str)
  | [] => none
  | [c] => if c = quote then some ([], []) else none
  | c :: d :: s =>
    if c = quote then
      if d = quote then (scanString s).map fun (text, rest) => (quote :: text, rest)
      else some ([], d :: s)
    else (scanString (d :: s)).map fun (text, rest) => (c :: text, rest)

def scanOp (c : UInt8) (s : Str) : Option (Op × Str) :=
  if c = 0x21 ∧ s.head? = some 0x3D then some (.bangEqual, s.tail)
  else if c = 0x3C ∧ s.head? = some 0x3E then some (.lessGreater, s.tail)
  else if c = 0x3C ∧ s.head? = some 0x3D then some (.lessEqual, s.tail)
  else if c = 0x3C then some (.less, s)
  else if c = 0x3E ∧ s.head? = some 0x3D then some (.greaterEqual, s.tail)
  else if c = 0x3E then some (.greater, s)
  else if c = 0x3D then some (.equal, s)
  else none

def scanWord (c : UInt8) (s : Str) : Except Error (Token × Str) :=
  if (c = 0x2D ∨ c = 0x2B) ∧ s.head?.any isDigit then
    .ok (.number (c :: s.takeWhile isNumberPart), s.dropWhile isNumberPart)
  else if isDigit c then
    .ok (.number (c :: s.takeWhile isNumberPart), s.dropWhile isNumberPart)
  else if isIdentStart c then
    .ok (word (c :: s.takeWhile isIdentPart), s.dropWhile isIdentPart)
  else .error (.unexpectedCharacter c)

def scanToken (c : UInt8) (s : Str) : Except Error (Token × Str) :=
  if c = 0x28 then .ok (.lparen, s)
  else if c = 0x29 then .ok (.rparen, s)
  else if c = quote then
    match scanString s with
    | none => .error .unterminatedString
    | some (text, rest) => .ok (.string text, rest)
  else if c = 0x25 then
    if s.takeWhile isDigit = [] then .error .malformedParameter
    else .ok (.param (s.takeWhile isDigit), s.dropWhile isDigit)
  else
    match scanOp c s with
    | some (o, rest) => .ok (.op o, rest)
    | none => scanWord c s

def scan (c : UInt8) (s : Str) : Except Error (Option Token × Str) :=
  if isBlank c then .ok (none, s) else (scanToken c s).map fun (t, rest) => (some t, rest)

def tokenizeFrom : Nat → Str → Except Error (List Token)
  | _, [] => .ok []
  | 0, _ :: _ => .ok []
  | n + 1, c :: s =>
    match scan c s with
    | .error e => .error e
    | .ok (t, rest) => (tokenizeFrom n rest).map fun ts => t.toList ++ ts

def tokenize (s : Str) : Except Error (List Token) := tokenizeFrom s.length s

/-! ## Every round takes a character -/

variable {rest s w : Str} {t : Token} {c : UInt8}

theorem scanString_length {text : Str} (h : scanString s = some (text, rest)) :
    rest.length ≤ s.length := by
  fun_induction scanString s generalizing text rest with
  | case1 => cases h
  | case2 => cases h; exact Nat.zero_le _
  | case3 c hc => cases h
  | case4 s ih =>
    obtain ⟨⟨text', rest'⟩, hrec, heq⟩ := Option.map_eq_some_iff.1 h
    cases heq
    have := ih hrec
    simp only [length_cons]
    omega
  | case5 d s hd => cases h; simp
  | case6 c d s hc ih =>
    obtain ⟨⟨text', rest'⟩, hrec, heq⟩ := Option.map_eq_some_iff.1 h
    cases heq
    have := ih hrec
    simp only [length_cons] at this ⊢
    omega

theorem length_dropWhile_le (p : UInt8 → Bool) (s : Str) : (s.dropWhile p).length ≤ s.length :=
  (dropWhile_sublist p).length_le

theorem scanOp_length {o : Op} (h : scanOp c s = some (o, rest)) : rest.length ≤ s.length := by
  unfold scanOp at h
  split_ifs at h <;> cases h <;> simp

theorem scanWord_length (h : scanWord c s = .ok (t, rest)) : rest.length ≤ s.length := by
  unfold scanWord at h
  split_ifs at h <;> cases h <;> exact length_dropWhile_le _ s

theorem scanToken_length (h : scanToken c s = .ok (t, rest)) : rest.length ≤ s.length := by
  unfold scanToken at h
  split_ifs at h
  · cases h; exact le_rfl
  · cases h; exact le_rfl
  · cases hstr : scanString s with
    | none => rw [hstr] at h; cases h
    | some r =>
      rw [hstr] at h
      cases h
      exact scanString_length hstr
  · cases h; exact length_dropWhile_le _ s
  · cases hop : scanOp c s with
    | none => rw [hop] at h; exact scanWord_length h
    | some r =>
      rw [hop] at h
      cases h
      exact scanOp_length hop

theorem scan_length {t : Option Token} (h : scan c s = .ok (t, rest)) : rest.length ≤ s.length := by
  unfold scan at h
  split_ifs at h
  · cases h; exact le_rfl
  · cases htok : scanToken c s with
    | error e => rw [htok] at h; cases h
    | ok r =>
      rw [htok] at h
      cases h
      exact scanToken_length htok

theorem tokenizeFrom_eq {n : Nat} (hn : s.length ≤ n) : tokenizeFrom n s = tokenize s := by
  unfold tokenize
  induction n using Nat.strong_induction_on generalizing s with
  | _ n ih =>
    cases s with
    | nil => cases n <;> rfl
    | cons c s =>
      cases n with
      | zero => simp at hn
      | succ n =>
        have hs : s.length ≤ n := by simpa using hn
        rw [length_cons, tokenizeFrom, tokenizeFrom]
        cases hscan : scan c s with
        | error e => rfl
        | ok r =>
          have hrest : r.2.length ≤ s.length := scan_length hscan
          have hleft := ih n (Nat.lt_succ_self n) (s := r.2) (by omega)
          have hright := ih s.length (by omega) hrest
          simp only [hleft, hright]

@[simp] theorem tokenize_nil : tokenize [] = .ok [] := rfl

theorem tokenize_cons {t : Option Token} (h : scan c s = .ok (t, rest)) :
    tokenize (c :: s) = (tokenize rest).map fun ts => t.toList ++ ts := by
  rw [tokenize, length_cons, tokenizeFrom, h]
  simp only [tokenizeFrom_eq (scan_length h)]

theorem tokenize_blank (hc : isBlank c) (s : Str) : tokenize (c :: s) = tokenize s := by
  have hscan : scan c s = .ok (none, s) := by rw [scan, if_pos hc]
  rw [tokenize_cons hscan]
  cases tokenize s <;> rfl

theorem tokenize_token (hc : isBlank c = false) (h : scanToken c s = .ok (t, rest)) :
    tokenize (c :: s) = (tokenize rest).map (t :: ·) := by
  have hscan : scan c s = .ok (some t, rest) := by
    rw [scan, hc, h]
    rfl
  exact tokenize_cons hscan

/-! ## Spelling -/

def quoted (text : Str) : Str :=
  quote :: (text.flatMap fun c => if c = quote then [quote, quote] else [c]) ++ [quote]

def Token.spelling : Token → Str
  | .string text => quoted text
  | .param digits => 0x25 :: digits
  | t => t.text

def Identifier (w : Str) : Prop :=
  (∃ c s, w = c :: s ∧ isIdentStart c = true ∧ ∀ d ∈ s, isIdentPart d = true) ∧
    toUpper w ≠ str "AND" ∧ toUpper w ≠ str "OR" ∧ toUpper w ≠ str "NOT"

/-- The text of a number: a digit, perhaps after a sign, and then digits and points. -/
def Numeral (w : Str) : Prop :=
  ∃ c s, w = c :: s ∧ (∀ d ∈ s, isNumberPart d = true) ∧
    (isDigit c = true ∨ ((c = 0x2D ∨ c = 0x2B) ∧ s.head?.any isDigit = true))

def Token.Valid : Token → Prop
  | .ident w => Identifier w
  | .number w => Numeral w
  | .param digits => digits ≠ [] ∧ ∀ c ∈ digits, isDigit c = true
  | .and w => toUpper w = str "AND"
  | .or w => toUpper w = str "OR"
  | .not w => toUpper w = str "NOT"
  | _ => True

def Token.runsInto : Token → UInt8 → Bool
  | .ident _, c | .and _, c | .or _, c | .not _, c => isIdentPart c
  | .number _, c => isNumberPart c
  | .param _, c => isDigit c
  | .string _, c => c = quote
  | .op .less, c => c = 0x3D || c = 0x3E
  | .op .greater, c => c = 0x3D
  | _, _ => false

/-- The text is that of the tokens in turn, with any amount of white space around them, as long as
no token runs into what follows it. -/
inductive Spells : List Token → Str → Prop
  | nil {ws : Str} : (∀ c ∈ ws, isBlank c = true) → Spells [] ws
  | cons {ws s : Str} {t : Token} {ts : List Token} : (∀ c ∈ ws, isBlank c = true) →
      (∀ c ∈ s.head?, t.runsInto c = false) → Spells ts s →
      Spells (t :: ts) (ws ++ (t.spelling ++ s))

theorem spells_spaced (ts : List Token) : Spells ts (ts.flatMap fun t => t.spelling ++ [0x20]) := by
  have hblank : ∀ t : Token, t.runsInto 0x20 = false := by
    intro t
    cases t with
    | op o => cases o <;> rfl
    | _ => rfl
  have hspells : ∀ ws : Str, (∀ c ∈ ws, isBlank c) →
      Spells ts (ws ++ ts.flatMap fun t => t.spelling ++ [0x20]) := by
    induction ts with
    | nil => intro ws hws; simpa using Spells.nil hws
    | cons t ts ih =>
      intro ws hws
      rw [flatMap_cons, append_assoc]
      refine .cons hws ?_ (ih [0x20] (by decide +kernel))
      intro c hc
      obtain rfl : (0x20 : UInt8) = c := by simpa using hc
      exact hblank t
  exact hspells [] (by simp)

/-! ## A text that spells tokens is cut into these -/

theorem span_append {p : UInt8 → Bool} (hw : ∀ c ∈ w, p c) (hs : ∀ c ∈ s.head?, p c = false) :
    (w ++ s).takeWhile p = w ∧ (w ++ s).dropWhile p = s := by
  rw [takeWhile_append_of_pos hw, dropWhile_append_of_pos hw]
  cases s with
  | nil => simp
  | cons c s => simp [hs c rfl]

theorem forall_byte {p : UInt8 → Prop} (h : ∀ n : Fin 256, p (UInt8.ofNat n)) (c : UInt8) : p c := by
  have hc := h ⟨c.toNat, c.toNat_lt⟩
  rwa [UInt8.ofNat_toNat] at hc

theorem scanOp_of_ne (hc : c ≠ 0x21 ∧ c ≠ 0x3C ∧ c ≠ 0x3E ∧ c ≠ 0x3D) : scanOp c s = none := by
  simp [scanOp, hc]

theorem scanToken_eq_scanWord (s : Str) (hc : isIdentStart c ∨ isDigit c ∨ c = 0x2D ∨ c = 0x2B) :
    isBlank c = false ∧ scanToken c s = scanWord c s := by
  have hclass : ∀ c : UInt8, (isIdentStart c ∨ isDigit c ∨ c = 0x2D ∨ c = 0x2B) →
      isBlank c = false ∧ (c ≠ 0x28 ∧ c ≠ 0x29 ∧ c ≠ quote ∧ c ≠ 0x25) ∧
        c ≠ 0x21 ∧ c ≠ 0x3C ∧ c ≠ 0x3E ∧ c ≠ 0x3D := by
    refine forall_byte ?_
    decide +kernel
  obtain ⟨hblank, ⟨h1, h2, h3, h4⟩, hop⟩ := hclass c hc
  refine ⟨hblank, ?_⟩
  rw [scanToken, if_neg h1, if_neg h2, if_neg h3, if_neg h4, scanOp_of_ne hop]

theorem tokenize_word (hw : ∃ c w', w = c :: w' ∧ isIdentStart c ∧
      ∀ d ∈ w', isIdentPart d) (hs : ∀ c ∈ s.head?, isIdentPart c = false) :
    tokenize (w ++ s) = (tokenize s).map (word w :: ·) := by
  obtain ⟨c, w', rfl, hc, hw'⟩ := hw
  have hclass : ∀ c : UInt8, isIdentStart c →
      ¬ isDigit c ∧ ¬ (c = 0x2D ∨ c = 0x2B) := by
    refine forall_byte ?_
    decide +kernel
  obtain ⟨hdigit, hsign⟩ := hclass c hc
  obtain ⟨hblank, hscan⟩ := scanToken_eq_scanWord (w' ++ s) (.inl hc)
  obtain ⟨htake, hdrop⟩ := span_append hw' hs
  refine tokenize_token hblank (hscan.trans ?_)
  rw [scanWord, if_neg fun h => hsign h.1, if_neg hdigit, if_pos hc, htake, hdrop]

theorem tokenize_number (hw : Numeral w) (hs : ∀ c ∈ s.head?, isNumberPart c = false) :
    tokenize (w ++ s) = (tokenize s).map (.number w :: ·) := by
  obtain ⟨c, w', rfl, hw', hc⟩ := hw
  obtain ⟨htake, hdrop⟩ := span_append hw' hs
  have hclass : isIdentStart c ∨ isDigit c ∨ c = 0x2D ∨ c = 0x2B := by
    rcases hc with hc | ⟨hc, _⟩
    · exact .inr (.inl hc)
    · exact .inr (.inr hc)
  obtain ⟨hblank, hscan⟩ := scanToken_eq_scanWord (w' ++ s) hclass
  refine tokenize_token hblank (hscan.trans ?_)
  rw [scanWord, htake, hdrop]
  rcases hc with hc | ⟨hsign, hdigit⟩
  · rw [if_pos hc, ite_self]
  · have hhead : (w' ++ s).head?.any isDigit = true := by
      cases w' with
      | nil => cases hdigit
      | cons d w' => exact hdigit
    rw [if_pos ⟨hsign, hhead⟩]

theorem scanString_quoted (text : Str) (hs : ∀ c ∈ s.head?, c ≠ quote) :
    scanString ((text.flatMap fun c => if c = quote then [quote, quote] else [c]) ++ quote :: s) =
      some (text, s) := by
  induction text with
  | nil =>
    cases s with
    | nil => rfl
    | cons d s => simp [scanString, hs d rfl]
  | cons c text ih =>
    by_cases hc : c = quote
    · subst hc
      simp [scanString, ih]
    · -- what follows is not empty, so the loop has a next character to look at
      obtain ⟨d, rest, hrest⟩ : ∃ d rest,
          (text.flatMap fun c => if c = quote then [quote, quote] else [c]) ++ quote :: s =
            d :: rest := by
        cases h : text.flatMap fun c => if c = quote then [quote, quote] else [c] with
        | _ => exact ⟨_, _, rfl⟩
      rw [hrest] at ih
      simp [hc, hrest, scanString, ih]

theorem tokenize_keyword {keyword : Str} (hw : toUpper w = keyword) (hne : keyword ≠ [])
    (hkeyword : ∀ c ∈ keyword, isIdentStart c) (hs : ∀ c ∈ s.head?, isIdentPart c = false) :
    tokenize (w ++ s) = (tokenize s).map (word w :: ·) := by
  have hupper : ∀ c, isIdentStart (toUpperByte c) = isIdentStart c := by
    refine forall_byte ?_
    decide +kernel
  have hstart : ∀ c ∈ w, isIdentStart c := by
    intro c hc
    rw [← hupper]
    exact hkeyword _ (hw ▸ List.mem_map_of_mem hc)
  have hpart : ∀ c ∈ w, isIdentPart c = true := fun c hc => by simp [isIdentPart, hstart c hc]
  refine tokenize_word ?_ hs
  cases w with
  | nil => exact absurd hw.symm hne
  | cons c w => exact ⟨c, w, rfl, hstart c (by simp), fun d hd => hpart d (by simp [hd])⟩

theorem scanToken_string {text : Str} (h : scanString s = some (text, rest)) :
    scanToken quote s = .ok (.string text, rest) := by
  rw [scanToken, if_neg (by decide), if_neg (by decide), if_pos rfl, h]

theorem scanToken_param (h : s.takeWhile isDigit ≠ []) :
    scanToken 0x25 s = .ok (.param (s.takeWhile isDigit), s.dropWhile isDigit) := by
  rw [scanToken, if_neg (by decide), if_neg (by decide), if_neg (by decide), if_pos rfl, if_neg h]

theorem tokenize_op {o : Op} (hc : c = 0x21 ∨ c = 0x3C ∨ c = 0x3E ∨ c = 0x3D)
    (h : scanOp c s = some (o, rest)) : tokenize (c :: s) = (tokenize rest).map (.op o :: ·) := by
  have hclass : isBlank c = false ∧ c ≠ 0x28 ∧ c ≠ 0x29 ∧ c ≠ quote ∧ c ≠ 0x25 := by
    rcases hc with rfl | rfl | rfl | rfl <;> decide
  obtain ⟨hblank, h1, h2, h3, h4⟩ := hclass
  refine tokenize_token hblank ?_
  rw [scanToken, if_neg h1, if_neg h2, if_neg h3, if_neg h4, h]

theorem tokenize_spelling (ht : t.Valid) (hs : ∀ c ∈ s.head?, t.runsInto c = false) :
    tokenize (t.spelling ++ s) = (tokenize s).map (t :: ·) := by
  cases t with
  | ident w =>
    obtain ⟨hparts, hand, hor, hnot⟩ := ht
    have hw : word w = .ident w := by rw [word, if_neg hand, if_neg hor, if_neg hnot]
    have h := tokenize_word hparts hs
    rwa [hw] at h
  | number w => exact tokenize_number ht hs
  | string text =>
    have hend : ∀ c ∈ s.head?, c ≠ quote := fun c hc => by simpa [Token.runsInto] using hs c hc
    have hscan := scanToken_string (scanString_quoted text hend)
    have h := tokenize_token (by decide) hscan
    simpa [Token.spelling, quoted] using h
  | param digits =>
    obtain ⟨hne, hdigits⟩ := ht
    obtain ⟨htake, hdrop⟩ := span_append hdigits hs
    have hscan := scanToken_param (s := digits ++ s) (by rwa [htake])
    rw [htake, hdrop] at hscan
    exact tokenize_token (by decide) hscan
  | op o =>
    cases o with
    | less =>
      have hequal : s.head? ≠ some 0x3D := fun h => by simpa [Token.runsInto] using hs _ h
      have hgreater : s.head? ≠ some 0x3E := fun h => by simpa [Token.runsInto] using hs _ h
      have hscan : scanOp 0x3C s = some (.less, s) := by simp [scanOp, hequal, hgreater]
      exact tokenize_op (by decide) hscan
    | greater =>
      have hequal : s.head? ≠ some 0x3D := fun h => by simpa [Token.runsInto] using hs _ h
      have hscan : scanOp 0x3E s = some (.greater, s) := by simp [scanOp, hequal]
      exact tokenize_op (by decide) hscan
    | _ => exact tokenize_op (by decide) rfl
  | and w =>
    have hw : word w = .and w := if_pos ht
    have h := tokenize_keyword ht (by decide) (by decide +kernel) hs
    rwa [hw] at h
  | or w =>
    have hand : toUpper w ≠ str "AND" := fun h => absurd (ht.symm.trans h) (by decide)
    have hw : word w = .or w := (if_neg hand).trans (if_pos ht)
    have h := tokenize_keyword ht (by decide) (by decide +kernel) hs
    rwa [hw] at h
  | not w =>
    have hand : toUpper w ≠ str "AND" := fun h => absurd (ht.symm.trans h) (by decide)
    have hor : toUpper w ≠ str "OR" := fun h => absurd (ht.symm.trans h) (by decide)
    have hw : word w = .not w := (if_neg hand).trans ((if_neg hor).trans (if_pos ht))
    have h := tokenize_keyword ht (by decide) (by decide +kernel) hs
    rwa [hw] at h
  | _ => exact tokenize_token (by decide) rfl

theorem tokenize_blanks {ws : Str} (hws : ∀ c ∈ ws, isBlank c) (s : Str) :
    tokenize (ws ++ s) = tokenize s := by
  induction ws with
  | nil => rfl
  | cons c ws ih =>
    rw [cons_append, tokenize_blank (hws c (by simp)), ih fun d hd => hws d (by simp [hd])]

/-- A text that spells a list of valid tokens is cut into these. -/
theorem tokenize_spells {ts : List Token} (h : Spells ts s) (hts : ∀ t ∈ ts, t.Valid) :
    tokenize s = .ok ts := by
  induction h with
  | nil hws =>
    have := tokenize_blanks hws []
    rwa [append_nil] at this
  | cons hws hends _ ih =>
    rw [tokenize_blanks hws, tokenize_spelling (hts _ (by simp)) hends,
      ih fun t ht => hts t (by simp [ht])]
    rfl

end GoDDS.Cfilter
