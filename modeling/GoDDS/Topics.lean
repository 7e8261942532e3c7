import GoDDS.Rtps.Qos

/-!
# Topic patterns

The packages `rtps`, `mock` and `shmem` each have their own copy of the pattern matcher.
-/

namespace GoDDS

open Go List

namespace Mock

def matchSlices : List Str → List Str → Bool
  | [], tSegs => tSegs.isEmpty
  | p :: _, [] => p = hash
  | p :: ps, t :: ts =>
    if p = hash then true
    else if p = plus ∨ p = t then matchSlices ps ts
    else false

def topicMatches (pattern topic : Str) : Bool :=
  matchSlices (pattern.splitOn slash) (topic.splitOn slash)

end Mock

namespace Shmem

def shmMatchSegs : List Str → List Str → Bool
  | [], t => t.isEmpty
  | p :: _, [] => p = hash
  | p :: ps, t :: ts =>
    if p = hash then true
    else if p = plus ∨ p = t then shmMatchSegs ps ts
    else false

def shmTopicMatches (pattern topic : Str) : Bool :=
  shmMatchSegs (pattern.splitOn slash) (topic.splitOn slash)

end Shmem

theorem matchSlices_copies (ps ts : List Str) :
    Mock.matchSlices ps ts = matchSlices ps ts ∧ Shmem.shmMatchSegs ps ts = matchSlices ps ts := by
  induction ps generalizing ts with
  | nil => exact ⟨rfl, rfl⟩
  | cons p ps ih =>
    cases ts with
    | nil => exact ⟨rfl, rfl⟩
    | cons t ts =>
      rw [Mock.matchSlices, Shmem.shmMatchSegs, matchSlices, (ih ts).1, (ih ts).2]
      exact ⟨rfl, rfl⟩

def LevelMatches (p t : Str) : Prop := p = plus ∨ p = t

theorem matchSlices_plain {ps ts : List Str} (h : hash ∉ ps) :
    matchSlices ps ts = true ↔ List.Forall₂ LevelMatches ps ts := by
  induction ps generalizing ts with
  | nil => cases ts <;> simp [matchSlices]
  | cons p ps ih =>
    obtain ⟨hp, hps⟩ := not_or.1 (mt mem_cons.2 h)
    cases ts with
    | nil => simp [matchSlices, Ne.symm hp]
    | cons t ts =>
      rw [matchSlices, if_neg (Ne.symm hp), forall₂_cons, ← ih hps, LevelMatches]
      split_ifs with hlevel
      all_goals simp [hlevel]

theorem matchSlices_hash {ps ts : List Str} (h : hash ∉ ps) : matchSlices (ps ++ [hash]) ts = true ↔
      ∃ front, front <+: ts ∧ List.Forall₂ LevelMatches ps front := by
  induction ps generalizing ts with
  | nil =>
    refine iff_of_true ?_ ⟨[], List.nil_prefix, .nil⟩
    cases ts <;> simp [matchSlices]
  | cons p ps ih =>
    obtain ⟨hp, hps⟩ := not_or.1 (mt mem_cons.2 h)
    cases ts with
    | nil => simp [matchSlices, Ne.symm hp]
    | cons t ts =>
      rw [cons_append, matchSlices, if_neg (Ne.symm hp)]
      constructor
      · intro hmatch
        split_ifs at hmatch with hlevel
        obtain ⟨front, hfront, hall⟩ := (ih hps).1 hmatch
        exact ⟨t :: front, cons_prefix_cons.2 ⟨rfl, hfront⟩, .cons hlevel hall⟩
      · rintro ⟨front, hfront, hall⟩
        cases hall with
        | cons hlevel hall =>
          obtain ⟨rfl, hrest⟩ := cons_prefix_cons.1 hfront
          rw [if_pos (show p = plus ∨ p = _ from hlevel)]
          exact (ih hps).2 ⟨_, hrest, hall⟩

/-- A pattern with `#` as its last level at most matches a topic level by level, up to the `#`; the
three copies agree on all strings. -/
theorem topicMatches_iff (pattern topic : Str) :
    let ps := pattern.splitOn slash
    let ts := topic.splitOn slash
    (hash ∉ ps.dropLast → (topicMatches pattern topic = true ↔
      (hash ∉ ps ∧ List.Forall₂ LevelMatches ps ts) ∨
        ∃ init front, ps = init ++ [hash] ∧ front <+: ts ∧ List.Forall₂ LevelMatches init front)) ∧
      Mock.topicMatches pattern topic = topicMatches pattern topic ∧
      Shmem.shmTopicMatches pattern topic = topicMatches pattern topic := by
  intro ps ts
  refine ⟨fun h => ?_, matchSlices_copies ps ts⟩
  change matchSlices ps ts = true ↔ _
  by_cases hmem : hash ∈ ps
  · obtain hnil | ⟨init, p, hps⟩ := eq_nil_or_concat' ps
    · rw [hnil] at hmem
      cases hmem
    rw [hps, dropLast_concat] at h
    rw [hps, mem_append, or_iff_right h, mem_singleton] at hmem
    rw [hps, ← hmem, matchSlices_hash h]
    constructor
    · rintro ⟨front, hfront, hall⟩
      exact .inr ⟨init, front, rfl, hfront, hall⟩
    · rintro (⟨hno, -⟩ | ⟨init', front, heq, hfront, hall⟩)
      · exact absurd (mem_append_right init mem_cons_self) hno
      · rw [(append_inj' heq rfl).1]
        exact ⟨front, hfront, hall⟩
  · rw [matchSlices_plain hmem]
    constructor
    · exact fun hall => .inl ⟨hmem, hall⟩
    · rintro (⟨-, hall⟩ | ⟨init, front, heq, -⟩)
      · exact hall
      · exact absurd (heq ▸ mem_append_right init mem_cons_self) hmem

theorem topicMatches_below : topicMatches (str "a/#") (str "a") = true :=
  ((topicMatches_iff _ _).1 (by decide +kernel)).2 <| .inr
    ⟨[str "a"], [str "a"], by decide +kernel, by decide +kernel, .cons (.inr rfl) .nil⟩

end GoDDS
