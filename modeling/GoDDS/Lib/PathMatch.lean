import GoDDS.Lib.Go

/-!
# Shell patterns

Go's `path.Match` with the UTF-8 decoding it uses. A pattern is cut into chunks, each of which may
follow a star. A star matches any bytes but slashes, by the shortest skip that lets the next chunk
match. A malformed pattern is an error, here `none`, when the matcher comes to see it.
-/

namespace Go

open ByteCodec List

def runeError : Nat := 0xFFFD

def runeClass (b : UInt8) : Option (Nat × UInt8 × UInt8) :=
  if 0xC2 ≤ b ∧ b ≤ 0xDF then some (2, 0x80, 0xBF)
  else if b = 0xE0 then some (3, 0xA0, 0xBF)
  else if b = 0xED then some (3, 0x80, 0x9F)
  else if 0xE1 ≤ b ∧ b ≤ 0xEF then some (3, 0x80, 0xBF)
  else if b = 0xF0 then some (4, 0x90, 0xBF)
  else if 0xF1 ≤ b ∧ b ≤ 0xF3 then some (4, 0x80, 0xBF)
  else if b = 0xF4 then some (4, 0x80, 0x8F)
  else none

def runeBits (b : UInt8) : Nat := (b &&& 0x3F).toNat

def isContinuation (b : UInt8) : Bool := 0x80 ≤ b && b ≤ 0xBF

def decodeRune (s : Str) : Nat × Nat :=
  match s with
  | [] => (runeError, 0)
  | s0 :: rest =>
    if s0 < 0x80 then (s0.toNat, 1)
    else
      match runeClass s0, rest with
      | some (2, lo, hi), s1 :: _ =>
        if s1 < lo ∨ hi < s1 then (runeError, 1)
        else ((s0 &&& 0x1F).toNat * 2 ^ 6 + runeBits s1, 2)
      | some (3, lo, hi), s1 :: s2 :: _ =>
        if s1 < lo ∨ hi < s1 ∨ !isContinuation s2 then (runeError, 1)
        else ((s0 &&& 0x0F).toNat * 2 ^ 12 + runeBits s1 * 2 ^ 6 + runeBits s2, 3)
      | some (4, lo, hi), s1 :: s2 :: s3 :: _ =>
        if s1 < lo ∨ hi < s1 ∨ !isContinuation s2 ∨ !isContinuation s3 then (runeError, 1)
        else
          ((s0 &&& 0x07).toNat * 2 ^ 18 + runeBits s1 * 2 ^ 12 + runeBits s2 * 2 ^ 6 + runeBits s3,
            4)
      | _, _ => (runeError, 1)

theorem decodeRune_width_pos {s : Str} (h : s ≠ []) : 0 < (decodeRune s).2 := by
  unfold decodeRune
  split
  · exact absurd rfl h
  · split_ifs
    · exact Nat.one_pos
    · split
      · split_ifs <;> simp
      · split_ifs <;> simp
      · split_ifs <;> simp
      · exact Nat.one_pos

def starByte : UInt8 := 0x2A
def escapeByte : UInt8 := 0x5C
def openByte : UInt8 := 0x5B
def closeByte : UInt8 := 0x5D
def slashByte : UInt8 := 0x2F
def anyByte : UInt8 := 0x3F
def dashByte : UInt8 := 0x2D
def caretByte : UInt8 := 0x5E

/-- The length of the next chunk: up to a star outside of a character class. -/
def scanLength : (inrange : Bool) → Str → Nat
  | _, [] => 0
  | inrange, c :: cs =>
    if c = escapeByte then
      match cs with
      | [] => 1
      | _ :: cs => 2 + scanLength inrange cs
    else if c = openByte then 1 + scanLength true cs
    else if c = closeByte then 1 + scanLength false cs
    else if c = starByte ∧ inrange = false then 0
    else 1 + scanLength inrange cs

structure Chunk where
  star : Bool
  chunk : Str
  rest : Str

def scanChunk (pattern : Str) : Chunk :=
  let body := pattern.dropWhile fun c => c = starByte
  { star := pattern.head? = some starByte
    chunk := body.take (scanLength false body)
    rest := body.drop (scanLength false body) }

theorem length_scanChunk_rest {pattern : Str} (h : pattern ≠ []) :
    (scanChunk pattern).rest.length < pattern.length := by
  obtain ⟨c, cs, rfl⟩ := exists_cons_of_ne_nil h
  have hle : ∀ l : Str, (scanChunk l).rest.length ≤ l.length := fun l => by
    have hdrop := (l.dropWhile_sublist fun c => c = starByte).length_le
    simp only [scanChunk, length_drop]
    omega
  by_cases hstar : c = starByte
  · have hsame : (scanChunk (c :: cs)).rest = (scanChunk cs).rest := by
      simp only [scanChunk, dropWhile_cons, hstar, decide_true, if_true]
    rw [hsame, length_cons]
    exact Nat.lt_succ_of_le (hle cs)
  · have hpos : 0 < scanLength false (c :: cs) := by
      unfold scanLength
      split_ifs with h₁ h₂ h₃ h₄
      · cases cs <;> simp
      · omega
      · omega
      · exact absurd h₄.1 hstar
      · omega
    simp only [scanChunk, dropWhile_cons, hstar, decide_false, Bool.false_eq_true, if_false,
      length_drop, length_cons]
    omega

/-! ## Matching a chunk -/

def getEsc (chunk : Str) : Option (Nat × Str) :=
  if chunk = [] ∨ chunk.head? = some dashByte ∨ chunk.head? = some closeByte then none
  else
    let chunk := if chunk.head? = some escapeByte then chunk.tail else chunk
    if chunk = [] then none
    else
      let (r, n) := decodeRune chunk
      if r = runeError ∧ n = 1 then none
      else if chunk.drop n = [] then none
      else some (r, chunk.drop n)

theorem length_getEsc {chunk rest : Str} {r : Nat} (h : getEsc chunk = some (r, rest)) :
    rest.length < chunk.length := by
  unfold getEsc at h
  dsimp only at h
  split_ifs at h with h₁ h₂ h₃ h₄ h₅ h₆ h₇ h₈
  · obtain ⟨-, rfl⟩ := Prod.mk.inj (Option.some.inj h)
    have hpos := length_pos_iff.2 h₃
    have hwidth := decodeRune_width_pos h₃
    simp only [length_drop, length_tail] at hpos ⊢
    omega
  · obtain ⟨-, rfl⟩ := Prod.mk.inj (Option.some.inj h)
    have hpos := length_pos_iff.2 h₆
    have hwidth := decodeRune_width_pos h₆
    rw [length_drop]
    omega

/-- Match a character against the ranges of a class, at least one, up to the closing bracket. -/
def matchRanges (r : Nat) (matched nonempty : Bool) (chunk : Str) : Option (Bool × Str) :=
  if chunk.head? = some closeByte ∧ nonempty = true then some (matched, chunk.tail)
  else
    match _h : getEsc chunk with
    | none => none
    | some (lo, rest) =>
      if rest.head? = some dashByte then
        match _h' : getEsc rest.tail with
        | none => none
        | some (hi, rest') => matchRanges r (matched || (lo ≤ r && r ≤ hi)) true rest'
      else matchRanges r (matched || (lo ≤ r && r ≤ lo)) true rest
termination_by chunk.length
decreasing_by
  · have h₁ := length_getEsc _h
    have h₂ := length_getEsc _h'
    rw [length_tail] at h₂
    omega
  · exact length_getEsc _h

theorem length_matchRanges {r : Nat} {matched nonempty : Bool} {chunk : Str} {m : Bool} {rest : Str}
    (h : matchRanges r matched nonempty chunk = some (m, rest)) : rest.length ≤ chunk.length := by
  fun_induction matchRanges r matched nonempty chunk with
  | case1 matched nonempty chunk hclose =>
    obtain ⟨-, rfl⟩ := Prod.mk.inj (Option.some.inj h)
    rw [length_tail]
    exact Nat.sub_le _ _
  | case2 => cases h
  | case3 => cases h
  | case4 matched nonempty chunk hclose lo rest₁ h₁ hdash hi rest₂ h₂ ih =>
    have hlen₁ := length_getEsc h₁
    have hlen₂ := length_getEsc h₂
    rw [length_tail] at hlen₂
    have := ih h
    omega
  | case5 matched nonempty chunk hclose lo rest₁ h₁ hdash ih =>
    have hlen₁ := length_getEsc h₁
    have := ih h
    omega

/-- Match a chunk against the beginning of a string: the rest, or `some none` if it does not match.
After a failure the chunk is only read for its errors. -/
def matchChunk (failed : Bool) (chunk s : Str) : Option (Option Str) :=
  match chunk with
  | [] => some (if failed then none else some s)
  | c :: chunk =>
    let failed := failed || s.isEmpty
    if c = openByte then
      let r := if failed then 0 else (decodeRune s).1
      let s' := if failed then s else s.drop (decodeRune s).2
      let negated := decide (chunk.head? = some caretByte)
      match _h : matchRanges r false false (if negated then chunk.tail else chunk) with
      | none => none
      | some (matched, rest) => matchChunk (failed || matched == negated) rest s'
    else if c = anyByte then
      if failed then matchChunk true chunk s
      else matchChunk (s.head? = some slashByte) chunk (s.drop (decodeRune s).2)
    else if c = escapeByte then
      match chunk with
      | [] => none
      | c :: chunk => matchChunk (failed || s.head? ≠ some c) chunk s.tail
    else matchChunk (failed || s.head? ≠ some c) chunk s.tail
termination_by chunk.length
decreasing_by
  all_goals simp only [length_cons]
  · have hlen := length_matchRanges _h
    split_ifs at hlen with hneg
    · rw [length_tail] at hlen
      omega
    · omega
  all_goals omega

/-- Look for a match after skipping one or more bytes, but no slash. The last chunk has to use up
the string. -/
def skipMatch (chunk : Str) (last : Bool) : Str → Option (Option Str)
  | [] => some none
  | c :: name =>
    if c = slashByte then some none
    else
      match matchChunk false chunk name with
      | none => none
      | some none => skipMatch chunk last name
      | some (some t) =>
        if last && !t.isEmpty then skipMatch chunk last name else some (some t)

/-- Before a match fails for good the rest of the pattern is read for its errors. -/
def checkRest (pattern : Str) : Option Bool :=
  if _h : pattern = [] then some false
  else
    match matchChunk false (scanChunk pattern).chunk [] with
    | none => none
    | some _ => checkRest (scanChunk pattern).rest
termination_by pattern.length
decreasing_by exact length_scanChunk_rest _h

/-- The name matches the pattern; `none` if the pattern is found to be malformed. -/
def pathMatch (pattern name : Str) : Option Bool :=
  if _h : pattern = [] then some name.isEmpty
  else
    let sc := scanChunk pattern
    if sc.star && sc.chunk.isEmpty then some (!name.contains slashByte)
    else
      let skip := if sc.star then skipMatch sc.chunk sc.rest.isEmpty name else some none
      match matchChunk false sc.chunk name with
      | none => none
      | some t =>
        match t.filter fun t => t.isEmpty || !sc.rest.isEmpty with
        | some t => pathMatch sc.rest t
        | none =>
          match skip with
          | none => none
          | some none => checkRest sc.rest
          | some (some t) => pathMatch sc.rest t
termination_by pattern.length
decreasing_by all_goals exact length_scanChunk_rest _h

-- a star does not cross a slash
example : pathMatch (str "vehicle/*") (str "vehicle/a/b") = some false := by decide +kernel

end Go
