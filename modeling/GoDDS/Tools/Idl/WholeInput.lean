import GoDDS.Tools.Idl.Parser

/-!
# Is all of the input read?

`parseModule` reads the file as it reads the body of a module: it stops at a closing brace, and
nobody looks whether the file goes on. `Scope ts us` says that the tokens from `ts` up to `us` make
up a scope, with no closing brace other than those of its declarations.
-/

namespace GoDDS.Tools.Idl

open Go Fuel List Outcome

def Ended (ts : List Token) : Prop := ∀ t ∈ ts.head?, closes t = true

inductive Declares (eofLine : Nat) : Str → List Token → List Token → Prop
  | struct {ts us : List Token} {s : Struct} :
      parseStruct eofLine ts = .ok (s, us) → Declares eofLine (str "struct") ts us
  | enum {ts us : List Token} {e : Enum} :
      parseEnum eofLine ts = .ok (e, us) → Declares eofLine (str "enum") ts us
  | typedef {ts us : List Token} {td : Typedef} :
      parseTypedef eofLine ts = .ok (td, us) → Declares eofLine (str "typedef") ts us

def keywords : List Str := [str "module", str "struct", str "enum", str "typedef"]

inductive Scope (eofLine : Nat) : List Token → List Token → Prop
  | done {ts : List Token} : Ended ts → Scope eofLine ts ts
  | other {t : Token} {ts us : List Token} : t.kind ≠ .ident → closes t = false →
      Scope eofLine ts us → Scope eofLine (t :: ts) us
  | unknown {t : Token} {ts us : List Token} : t.kind = .ident → t.val ∉ keywords →
      Scope eofLine (skipUnknown ts) us → Scope eofLine (t :: ts) us
  | declaration {t : Token} {ts us vs : List Token} : t.kind = .ident →
      Declares eofLine t.val ts us → Scope eofLine us vs → Scope eofLine (t :: ts) vs
  | module {t name opening closing : Token} {ts us vs : List Token} : t.kind = .ident →
      t.val = str "module" → name.kind = .ident → opening.kind = .lBrace →
      Scope eofLine ts (closing :: us) → closing.kind = .rBrace → Scope eofLine (skipSemi us) vs →
      Scope eofLine (t :: name :: opening :: ts) vs

variable {eofLine : Nat}

/-! ## What is accepted is a scope -/

variable {ts us : List Token} {n : Nat} {inner : Parser Token ParseError Module} {t : Token}

theorem parseNamedModule_eq_ok {r : Module × List Token}
    (h : parseNamedModule eofLine inner ts = .ok r) :
    ∃ name opening closing ts' us m, ts = name :: opening :: ts' ∧ name.kind = .ident ∧
      opening.kind = .lBrace ∧ inner ts' = .ok (m, closing :: us) ∧ closing.kind = .rBrace ∧
      r.2 = skipSemi us := by
  obtain ⟨name, hname, h⟩ := bind_eq_ok.1 h
  obtain ⟨opening, hopening, h⟩ := bind_eq_ok.1 h
  obtain ⟨m, hm, h⟩ := bind_eq_ok.1 h
  obtain ⟨closing, hclosing, h⟩ := bind_eq_ok.1 h
  rw [expectTok_eq_ok] at hname hopening hclosing
  cases h
  refine ⟨name.1, opening.1, closing.1, opening.2, closing.2, m.1, ?_, hname.2, hopening.2, ?_,
    hclosing.2, rfl⟩
  · rw [hname.1, hopening.1]
  · rw [hm, ← hclosing.1]

theorem scope_of_parseItem (hinner : ∀ ts m us, inner ts = .ok (m, us) → Scope eofLine ts us)
    {vs : List Token} {r : Item × List Token} (ht : closes t = false)
    (h : parseItem eofLine inner t ts = .ok r) (hrest : Scope eofLine r.2 vs) :
    Scope eofLine (t :: ts) vs := by
  unfold parseItem at h
  split_ifs at h with hkind hmodule hstruct henum htypedef
  · cases h
    exact .other hkind ht hrest
  · obtain ⟨m, hm, h⟩ := bind_eq_ok.1 h
    cases h
    obtain ⟨name, opening, closing, ts', us, m', rfl, hname, hopening, hm', hclosing, hr⟩ :=
      parseNamedModule_eq_ok hm
    rw [hr] at hrest
    exact .module (not_not.1 hkind) hmodule hname hopening (hinner _ _ _ hm') hclosing hrest
  · obtain ⟨s, hs, h⟩ := bind_eq_ok.1 h
    cases h
    exact .declaration (not_not.1 hkind) (hstruct ▸ .struct hs) hrest
  · obtain ⟨e, he, h⟩ := bind_eq_ok.1 h
    cases h
    exact .declaration (not_not.1 hkind) (henum ▸ .enum he) hrest
  · obtain ⟨td, htd, h⟩ := bind_eq_ok.1 h
    cases h
    exact .declaration (not_not.1 hkind) (htypedef ▸ .typedef htd) hrest
  · cases h
    refine .unknown (not_not.1 hkind) ?_ hrest
    simp [keywords, hmodule, hstruct, henum, htypedef]

theorem scope_of_manyUntil (hinner : ∀ ts m us, inner ts = .ok (m, us) → Scope eofLine ts us)
    {acc : List Item} {r : List Item × List Token}
    (h : manyUntil closes (parseItem eofLine inner) n acc ts = .ok r) : Scope eofLine ts r.2 := by
  induction n generalizing acc ts with
  | zero => cases h
  | succ n ih =>
    cases ts with
    | nil =>
      cases h
      exact .done (by simp [Ended])
    | cons t ts =>
      rw [manyUntil] at h
      split_ifs at h with hstop
      · cases h
        exact .done (by simpa [Ended] using hstop)
      · obtain ⟨item, hitem, h⟩ := bind_eq_ok.1 h
        exact scope_of_parseItem hinner (Bool.eq_false_iff.2 hstop) hitem (ih h)

theorem scope_of_parseModule (n : Nat) (ts : List Token) (m : Module) (us : List Token)
    (h : parseModule eofLine n ts = .ok (m, us)) : Scope eofLine ts us := by
  induction n generalizing ts m us with
  | zero => cases h
  | succ n ih =>
    obtain ⟨items, hitems, h⟩ := bind_eq_ok.1 h
    cases h
    exact scope_of_manyUntil ih hitems

/-! ## Every scope is accepted -/

theorem Declares.parseItem (hkind : t.kind = .ident) (h : Declares eofLine t.val ts us) :
    ∃ item, parseItem eofLine inner t ts = .ok (item, us) := by
  generalize hval : t.val = val at h
  cases h with
  | @struct _ _ s hs =>
    exact ⟨.struct s, by simp [Idl.parseItem, hkind, hval, hs, str]⟩
  | @enum _ _ e he => exact ⟨.enum e, by simp [Idl.parseItem, hkind, hval, he, str]⟩
  | @typedef _ _ td htd => exact ⟨.typedef td, by simp [Idl.parseItem, hkind, hval, htd, str]⟩

theorem parseNamedModule_of_inner {name opening closing : Token} {m : Module}
    (hname : name.kind = .ident) (hopening : opening.kind = .lBrace)
    (hm : inner ts = .ok (m, closing :: us)) (hclosing : closing.kind = .rBrace) :
    parseNamedModule eofLine inner (name :: opening :: ts) =
      .ok (m.named name.val, skipSemi us) := by
  simp [parseNamedModule, expectTok, hname, hopening, hm, hclosing]

theorem Declares.length {val : Str} (h : Declares eofLine val ts us) : us.length ≤ ts.length := by
  cases h with
  | struct hs => exact (within_parseStruct ts).2 _ hs
  | enum he => exact (within_parseEnum ts).2 _ he
  | typedef htd => exact (within_parseTypedef ts).2 _ htd

theorem closes_of_ident (h : t.kind = .ident) : closes t = false := by
  simp [closes, h]

theorem manyUntil_round {item : Token → Parser Token ParseError Item} {vs : List Token} {a : Item}
    (ht : closes t = false) (ha : item t ts = .ok (a, us)) {k : Nat} (hk : ts.length + 1 < k)
    (hus : us.length ≤ ts.length) (hrest : ∀ {k : Nat}, us.length < k → ∀ acc,
      ∃ items, manyUntil closes item k acc us = .ok (items, vs)) (acc : List Item) :
    ∃ items, manyUntil closes item k acc (t :: ts) = .ok (items, vs) := by
  obtain ⟨k, rfl⟩ : ∃ j, k = j + 1 := ⟨k - 1, by omega⟩
  obtain ⟨items, hitems⟩ := hrest (k := k) (by omega) (acc ++ [a])
  refine ⟨items, ?_⟩
  rw [manyUntil, ht, ha]
  exact hitems

theorem Scope.manyUntil (h : Scope eofLine ts us) {k : Nat} (hn : ts.length ≤ n)
    (hk : ts.length < k) (acc : List Item) :
    ∃ items, manyUntil closes (parseItem eofLine (parseModule eofLine n)) k acc ts =
      .ok (items, us) := by
  induction h generalizing n k acc with
  | @done ts hended =>
    obtain ⟨k, rfl⟩ : ∃ j, k = j + 1 := ⟨k - 1, by omega⟩
    cases ts with
    | nil => exact ⟨acc, rfl⟩
    | cons t ts =>
      have hstop : closes t = true := hended t rfl
      exact ⟨acc, by rw [Fuel.manyUntil, if_pos hstop]⟩
  | @other t ts us hkind ht _ ih =>
    simp only [length_cons] at hn hk
    have hitem : parseItem eofLine (parseModule eofLine n) t ts = .ok (.skipped, ts) := by
      simp [parseItem, hkind]
    exact manyUntil_round ht hitem hk (Nat.le_refl _) (fun hk acc => ih (by omega) hk acc) acc
  | @unknown t ts us hkind hval _ ih =>
    simp only [length_cons] at hn hk
    simp only [keywords, mem_cons, not_mem_nil, or_false, not_or] at hval
    have hlen := skipUnknown_length ts
    have hitem : parseItem eofLine (parseModule eofLine n) t ts = .ok (.skipped, skipUnknown ts) := by
      simp [parseItem, hkind, hval]
    exact manyUntil_round (closes_of_ident hkind) hitem hk hlen
      (fun hk acc => ih (by omega) hk acc) acc
  | @declaration t ts us vs hkind hdecl _ ih =>
    simp only [length_cons] at hn hk
    have hlen := hdecl.length
    obtain ⟨item, hitem⟩ := hdecl.parseItem hkind
    exact manyUntil_round (closes_of_ident hkind) hitem hk hlen
      (fun hk acc => ih (by omega) hk acc) acc
  | @module t name opening closing ts us vs hkind hval hname hopening hinner hclosing _ ihinner ih =>
    simp only [length_cons] at hn hk
    obtain ⟨n, rfl⟩ : ∃ j, n = j + 1 := ⟨n - 1, by omega⟩
    obtain ⟨items, hitems⟩ := ihinner (n := n) (k := n + 1) (by omega) (by omega) []
    have hbody : parseModule eofLine (n + 1) ts = .ok (collect [] items, closing :: us) :=
      bind_eq_ok.2 ⟨_, hitems, rfl⟩
    have hlen : (closing :: us).length ≤ ts.length :=
      (within_parseModule (n := n + 1) (by omega)).2 _ hbody
    have hsemi := skipSemi_length us
    simp only [length_cons] at hlen
    have hitem : parseItem eofLine (parseModule eofLine (n + 1)) t (name :: opening :: ts) =
        .ok (.module ((collect [] items).named name.val), skipSemi us) := by
      simp [parseItem, hkind, hval, parseNamedModule_of_inner hname hopening hbody hclosing]
    refine manyUntil_round (closes_of_ident hkind) hitem hk ?_
      (fun hk acc => ih (by omega) hk acc) acc
    simp only [length_cons]
    omega

theorem Scope.parseModule (h : Scope eofLine ts us) (hn : ts.length < n) :
    ∃ m, parseModule eofLine n ts = .ok (m, us) := by
  obtain ⟨n, rfl⟩ : ∃ j, n = j + 1 := ⟨n - 1, by omega⟩
  obtain ⟨items, hitems⟩ := h.manyUntil (n := n) (k := n + 1) (by omega) hn []
  exact ⟨collect [] items, bind_eq_ok.2 ⟨_, hitems, rfl⟩⟩

/-- Whatever is accepted has been read to the end exactly if no closing brace follows on a scope at
the beginning of the file. -/
theorem whole_input_iff (u : Unicode) (src : List Char) :
    (∀ m rest, parseText u src = .ok (m, rest) → rest = []) ↔
      ∀ brace rest, ¬ Scope (lex u src).2 (lex u src).1 (brace :: rest) := by
  constructor
  · intro hall brace rest hscope
    obtain ⟨m, hm⟩ := hscope.parseModule (Nat.lt_succ_self _)
    cases hall m _ hm
  · intro hnone m rest hm
    have hscope := scope_of_parseModule _ _ _ _ hm
    cases rest with
    | nil => rfl
    | cons brace rest => exact absurd hscope (hnone brace rest)

def ascii : Unicode where
  isSpace c := c = ' ' || c = '\t' || c = '\n' || c = '\r'
  isDigit c := '0' ≤ c && c ≤ '9'
  isLetter c := ('a' ≤ c && c ≤ 'z') || ('A' ≤ c && c ≤ 'Z')

theorem struct_after_brace_lost :
    ∃ m rest, parseText ascii "\x7d struct S \x7b long x; \x7d;".toList = .ok (m, rest) ∧
      m.structs.length = 0 ∧ rest.length = 9 :=
  ⟨_, _, rfl, rfl, rfl⟩

end GoDDS.Tools.Idl
