import GoDDS.Lib.Go

/-!
# The IDL lexer

`lexer` of `parser.go`, one round after the other (`scan`).
-/

namespace GoDDS.Tools.Idl

open Go

/-- The classes of characters of the package `unicode`. -/
structure Unicode where
  isSpace : Char → Bool
  isDigit : Char → Bool
  isLetter : Char → Bool

/-- `tokenKind`, without `tokEOF`: that is the end of the list of tokens. -/
inductive TokenKind where
  | ident
  | number
  | lBrace
  | rBrace
  | lAngle
  | rAngle
  | lBracket
  | rBracket
  | semi
  | comma
  | doubleColon
  | atSign
  deriving DecidableEq

structure Token where
  kind : TokenKind
  val : Str
  line : Nat

def punctuation : Char → Option TokenKind
  | '\x7b' => some .lBrace
  | '\x7d' => some .rBrace
  | '<' => some .lAngle
  | '>' => some .rAngle
  | '[' => some .lBracket
  | ']' => some .rBracket
  | ';' => some .semi
  | ',' => some .comma
  | '@' => some .atSign
  | _ => none

def newline (c : Char) (line : Nat) : Nat := if c = '\n' then line + 1 else line

/-- The loop over a block comment. One that does not end leaves the last character of the text. -/
def skipBlock : List Char → Nat → List Char × Nat
  | c :: d :: s, line =>
    if c = '*' ∧ d = '/' then (s, line) else skipBlock (d :: s) (newline c line)
  | s, line => (s, line)

section Lexer

variable (u : Unicode)

def Unicode.isIdentPart (c : Char) : Bool := u.isLetter c || u.isDigit c || c = '_'

/-- One round at the character `c`: the token, if there is one, what is left, and the line. -/
def scan (c : Char) (s : List Char) (line : Nat) : Option Token × List Char × Nat :=
  if u.isSpace c then (none, s, newline c line)
  else if c = '/' ∧ s.head? = some '/' then (none, s.dropWhile (· ≠ '\n'), line)
  else if c = '/' ∧ s.head? = some '*' then (none, skipBlock s.tail line)
  else
    match punctuation c with
    | some kind => (some ⟨kind, encodeRune c, line⟩, s, line)
    | none =>
      if c = ':' then
        if s.head? = some ':' then (some ⟨.doubleColon, str "::", line⟩, s.tail, line)
        else (none, s, line)
      else if u.isDigit c then
        (some ⟨.number, ofRunes (c :: s.takeWhile u.isDigit), line⟩, s.dropWhile u.isDigit, line)
      else if u.isLetter c || c = '_' then
        (some ⟨.ident, ofRunes (c :: s.takeWhile u.isIdentPart), line⟩,
          s.dropWhile u.isIdentPart, line)
      else (none, s, newline c line)

/-- The tokens from some place on, for at most the given number of rounds, and the last line. -/
def lexFrom : Nat → List Char → Nat → List Token × Nat
  | _, [], line => ([], line)
  | 0, _ :: _, line => ([], line)
  | n + 1, c :: s, line =>
    let r := scan u c s line
    let rest := lexFrom n r.2.1 r.2.2
    (r.1.toList ++ rest.1, rest.2)

/-- The tokens are listed in advance, with the line on which the text ends. -/
def lex (src : List Char) : List Token × Nat := lexFrom u src.length src 1

end Lexer

variable {u : Unicode}

theorem skipBlock_length (s : List Char) (line : Nat) : (skipBlock s line).1.length ≤ s.length := by
  fun_induction skipBlock s line with
  | case1 c d s line h =>
    simp only [List.length_cons]
    omega
  | case2 c d s line h ih =>
    simp only [List.length_cons] at ih ⊢
    omega
  | case3 s line h => exact Nat.le_refl _

theorem scan_length (c : Char) (s : List Char) (line : Nat) :
    (scan u c s line).2.1.length ≤ s.length := by
  have hdrop : ∀ p : Char → Bool, (s.dropWhile p).length ≤ s.length := fun p =>
    (List.dropWhile_sublist p).length_le
  have htail : s.tail.length ≤ s.length := by simp
  have hblock := (skipBlock_length s.tail line).trans htail
  unfold scan
  cases punctuation c with
  | some kind => split_ifs <;> first | exact Nat.le_refl _ | exact hdrop _ | exact hblock
  | none =>
    split_ifs <;> first | exact Nat.le_refl _ | exact hdrop _ | exact htail | exact hblock

/-- Every round takes a character, so the text's length bounds the number of rounds. -/
theorem lexFrom_eq {n : Nat} {s : List Char} (hn : s.length ≤ n) (line : Nat) :
    lexFrom u n s line = lexFrom u s.length s line := by
  induction n using Nat.strong_induction_on generalizing s line with
  | _ n ih =>
    cases s with
    | nil => cases n <;> rfl
    | cons c s =>
      cases n with
      | zero => simp at hn
      | succ n =>
        have hs : s.length ≤ n := by simpa using hn
        have hrest : (scan u c s line).2.1.length ≤ s.length := scan_length c s line
        have hleft := ih n (Nat.lt_succ_self n) (hrest.trans hs) (scan u c s line).2.2
        have hright := ih s.length (by omega) hrest (scan u c s line).2.2
        simp only [List.length_cons, lexFrom, hleft, hright]

end GoDDS.Tools.Idl
