import GoDDS.Rtps.Cdr

/-!
# Padding parameters

A padding parameter declares a length, and a reader is to step over as many bytes. The decoder steps
over the header only and reads these bytes as parameters.
-/

namespace GoDDS

open ByteCodec Go List UInt16

/-- An entry of a parameter list: a parameter, or padding with the bytes it declares. -/
inductive Entry
  | param (p : Param)
  | pad (content : Bytes)

namespace Entry

/-- The length fits its field, and the id is neither sentinel nor padding. Padding is a multiple of
four bytes. -/
def Valid : Entry → Prop
  | .param p => p.pid ≠ pidSentinel ∧ p.pid ≠ pidPad ∧ p.value.length < 65536
  | .pad content => content.length % 4 = 0 ∧ content.length < 65536

def encode : Entry → Bytes
  | .param p => u16 p.pid ++ (u16 (UInt16.ofNat p.value.length) ++ p.value)
  | .pad content => u16 pidPad ++ (u16 (UInt16.ofNat content.length) ++ content)

def isParam : Entry → Bool
  | .param _ => true
  | .pad _ => false

end Entry

def encodeEntries (es : List Entry) : Bytes := es.flatMap Entry.encode

/-! ## Empty padding headers -/

/-- A sequence of padding headers with nothing between them, whatever lengths they declare. -/
def blank : Bytes → Bool
  | [] => true
  | p₀ :: p₁ :: _ :: _ :: rest => p₀ == 0 && p₁ == 0 && blank rest
  | _ => false

theorem params_of_none {b : Bytes} (h : nextParam b = none) : params b = [] := by
  unfold params
  cases b.length with
  | zero => rfl
  | succ n => simp [paramsFuel, h]

theorem params_congr {b b' : Bytes} (h : nextParam b = nextParam b') : params b = params b' := by
  cases hnext : nextParam b' with
  | none =>
    rw [params_of_none (h.trans hnext), params_of_none hnext]
  | some r =>
    obtain ⟨p, rest⟩ := r
    rw [params_of_nextParam (h.trans hnext), params_of_nextParam hnext]

theorem params_padHeader (l₀ l₁ : UInt8) (rest : Bytes) :
    params (0 :: 0 :: l₀ :: l₁ :: rest) = params rest := by
  have hpid : u16At [0, 0] 0 = pidPad := by decide
  have hne : pidPad ≠ pidSentinel := by decide
  apply params_congr
  simp only [nextParam, hpid, if_neg hne, if_true]

theorem params_blank {c : Bytes} (h : blank c) (rest : Bytes) :
    params (c ++ rest) = params rest := by
  fun_induction blank c with
  | case1 => rfl
  | case2 p₀ p₁ l₀ l₁ tail ih =>
    simp only [Bool.and_eq_true, beq_iff_eq] at h
    obtain ⟨⟨rfl, rfl⟩, htail⟩ := h
    exact (params_padHeader l₀ l₁ (tail ++ rest)).trans (ih htail)
  | case3 => cases h

open Entry

theorem params_pad {c : Bytes} (h : blank c) (rest : Bytes) :
    params ((pad c).encode ++ rest) = params rest := by
  have hheader : blank ((pad c).encode) := by
    change blank (0 :: 0 :: _ :: _ :: c)
    simpa [blank] using h
  exact params_blank hheader rest

theorem params_param {p : Param} (h : (param p).Valid) (rest : Bytes) :
    params ((param p).encode ++ rest) = p :: params rest := by
  obtain ⟨hsent, hpad, hlen⟩ := h
  have hn : (ofNat p.value.length).toNat = p.value.length := toNat_ofNat_of_lt' hlen
  apply params_of_nextParam
  rw [encode, append_assoc, append_assoc, nextParam_header _ _ _ hsent hpad, hn,
    take_left, drop_left]
  rw [hn, length_append]
  omega

theorem params_entries {es : List Entry} (hvalid : ∀ e ∈ es, e.Valid)
    (hblank : ∀ c, pad c ∈ es → blank c) (rest : Bytes) :
    params (encodeEntries es ++ rest) = params (encodeEntries (es.filter isParam) ++ rest) := by
  induction es with
  | nil => rfl
  | cons e es ih =>
    have ih' := ih (fun e he => hvalid e (mem_cons_of_mem _ he))
      fun c hc => hblank c (mem_cons_of_mem _ hc)
    cases e with
    | param p =>
      have hp := hvalid _ mem_cons_self
      rw [filter_cons_of_pos rfl]
      simp only [encodeEntries, flatMap_cons, append_assoc, params_param hp] at ih' ⊢
      rw [ih']
    | pad c =>
      have hc := hblank c mem_cons_self
      rw [filter_cons_of_neg Bool.false_ne_true]
      simp only [encodeEntries, flatMap_cons, append_assoc, params_pad hc] at ih' ⊢
      exact ih'

/-! ## Bytes that are no padding -/

theorem eq_zero_of_u16At {p₀ p₁ : UInt8} (h : u16At [p₀, p₁] 0 = pidPad) : p₀ = 0 ∧ p₁ = 0 := by
  have hval : leVal [p₀, p₁] = p₀.toNat + 256 * p₁.toNat := by
    simp [leVal, Nat.ofDigits]
  have hlow := p₀.toNat_lt
  have hhigh := p₁.toNat_lt
  have hzero : leVal [p₀, p₁] = 0 := by
    have hnat : (ofNat (leVal [p₀, p₁])).toNat = 0 := congrArg toNat h
    have hfits : leVal [p₀, p₁] < 65536 := by
      rw [hval]
      omega
    rwa [toNat_ofNat_of_lt' hfits] at hnat
  constructor
  all_goals exact UInt8.toNat_inj.1 (by simp only [UInt8.toNat_zero]; omega)

theorem head_of_not_blank {c : Bytes} (hlen : c.length % 4 = 0) (h : blank c = false) :
    ∃ pid, ∀ rest, params (c ++ rest) = [] ∨
      ∃ value more, params (c ++ rest) = ⟨pid, value⟩ :: more := by
  fun_induction blank c with
  | case1 => cases h
  | case2 p₀ p₁ l₀ l₁ tail ih =>
    by_cases hzero : p₀ = 0 ∧ p₁ = 0
    · obtain ⟨rfl, rfl⟩ := hzero
      simp only [length_cons] at hlen
      obtain ⟨pid, hpid⟩ := ih (by omega) (by simpa using h)
      refine ⟨pid, fun rest => ?_⟩
      rw [cons_append, cons_append, cons_append, cons_append, params_padHeader]
      exact hpid rest
    · have hpad : u16At [p₀, p₁] 0 ≠ pidPad := mt eq_zero_of_u16At hzero
      refine ⟨u16At [p₀, p₁] 0, fun rest => ?_⟩
      by_cases hsent : u16At [p₀, p₁] 0 = pidSentinel
      · refine .inl (params_of_none ?_)
        simp only [cons_append, nextParam, hsent, if_true]
      by_cases hfit : (u16At [l₀, l₁] 0).toNat > (tail ++ rest).length
      · refine .inl (params_of_none ?_)
        simp only [cons_append, nextParam, if_neg hsent, if_neg hpad, if_pos hfit]
      · have hnext : nextParam (p₀ :: p₁ :: l₀ :: l₁ :: tail ++ rest) =
            some (⟨u16At [p₀, p₁] 0, (tail ++ rest).take (u16At [l₀, l₁] 0).toNat⟩,
              (tail ++ rest).drop (u16At [l₀, l₁] 0).toNat) := by
          simp only [cons_append, nextParam, if_neg hsent, if_neg hpad, if_neg hfit]
        exact .inr ⟨_, _, params_of_nextParam hnext⟩
  | case3 c hnil hcons =>
    -- a multiple of four bytes is empty or has a header
    exfalso
    rcases c with _ | ⟨a, _ | ⟨b, _ | ⟨c, _ | ⟨d, t⟩⟩⟩⟩
    · exact hnil rfl
    iterate 3 · simp at hlen
    · exact hcons a b c d t rfl

theorem exists_other (a b c : UInt16) : ∃ q, q ≠ a ∧ q ≠ b ∧ q ≠ c := by
  by_contra hnone
  push Not at hnone
  have h₀ := hnone 0
  have h₁ := hnone 1
  have h₂ := hnone 2
  have h₃ := hnone 3
  grind

/-- Padding is transparent, in every parameter list and at every place in it, exactly if the bytes
it declares are themselves empty padding headers. -/
theorem padding_transparent_iff (P : Bytes → Prop) (hP : ∀ c, P c → (Entry.pad c).Valid) :
    (∀ es rest, (∀ e ∈ es, e.Valid) → (∀ c, Entry.pad c ∈ es → P c) →
        params (encodeEntries es ++ rest) =
          params (encodeEntries (es.filter Entry.isParam) ++ rest)) ↔
      ∀ c, P c → blank c = true := by
  constructor
  · intro h c hc
    by_contra hblank
    have hlen := (hP c hc).1
    -- The padding's header is a padding header, so what counts are the bytes behind it.
    have hheader : blank ((pad c).encode) = false := by
      change blank (0 :: 0 :: _ :: _ :: c) = false
      simpa [blank] using hblank
    have hheaderLen : (pad c).encode.length % 4 = 0 := by
      change (0 :: 0 :: _ :: _ :: c).length % 4 = 0
      simp only [length_cons]
      omega
    obtain ⟨pid, hpid⟩ := head_of_not_blank hheaderLen hheader
    obtain ⟨q, hne, hsent, hpad⟩ := exists_other pid pidSentinel pidPad
    have hq : (param ⟨q, []⟩).Valid := ⟨hsent, hpad, by simp⟩
    have hsame := h [.pad c, .param ⟨q, []⟩] []
      (forall_mem_cons.2 ⟨hP c hc, forall_mem_singleton.2 hq⟩)
      (fun c' hc' => by simp at hc'; exact hc' ▸ hc)
    have hright : params (encodeEntries ([.pad c, .param ⟨q, []⟩].filter isParam) ++ []) =
        [⟨q, []⟩] := params_param hq []
    rw [hright] at hsame
    have hleft : encodeEntries [.pad c, .param ⟨q, []⟩] ++ [] =
        (pad c).encode ++ (param ⟨q, []⟩).encode := by
      simp [encodeEntries]
    rw [hleft] at hsame
    rcases hpid (param ⟨q, []⟩).encode with hnil | ⟨value, more, hcons⟩
    · cases hnil.symm.trans hsame
    · have hhead := hcons.symm.trans hsame
      simp only [List.cons.injEq, Param.mk.injEq] at hhead
      exact hne hhead.1.1.symm
  · intro h es rest hvalid hpads
    exact params_entries hvalid (fun c hc => h c (hpads c hc)) rest

theorem padding_transparent_blank :
    let P : Bytes → Prop := fun c => c ∈ [[], [0, 0, 4, 0]]
    ∀ es rest, (∀ e ∈ es, e.Valid) → (∀ c, pad c ∈ es → P c) →
      params (encodeEntries es ++ rest) =
        params (encodeEntries (es.filter isParam) ++ rest) := by
  have hvalid : ∀ c ∈ [[], [0, 0, 4, 0]], (pad c).Valid :=
    forall_mem_cons.2 ⟨⟨rfl, by decide⟩, forall_mem_singleton.2 ⟨rfl, by decide⟩⟩
  exact (padding_transparent_iff (fun c => c ∈ [[], [0, 0, 4, 0]]) hvalid).2 (by decide)

/-- Four bytes of padding that look like the sentinel hide the topic name behind them. -/
theorem padding_hides_parameter :
    let topic : Param := ⟨pidTopicName, [1, 0, 0, 0, 0, 0, 0, 0]⟩
    (pad [1, 0, 0, 0]).Valid ∧ (param topic).Valid ∧
      params (encodeEntries [.param topic] ++ (u16 pidSentinel ++ [0, 0])) = [topic] ∧
      params (encodeEntries [.pad [1, 0, 0, 0], .param topic] ++ (u16 pidSentinel ++ [0, 0])) =
        [] := by
  refine ⟨⟨by decide, by decide⟩, ⟨by decide, by decide, by decide⟩, by decide, by decide⟩

end GoDDS
