import GoDDS.Lib.Loop
import GoDDS.Tools.Idl.Typed

/-!
# Loops inside loops

A generated reference below two loops over positions mentions `_i` once for each, and both mean the
inner variable. `indexable` says that no type is used in this way.
-/

namespace GoDDS.Tools.Idl

open ByteCodec Cdr List Option Path Bool Loop Ref

/-! ## Where references are right -/

inductive Nest where
  /-- none -/
  | outside
  /-- only loops over arrays of one element -/
  | units
  /-- one loop of any size -/
  | one
  deriving DecidableEq

/-- The loops around, inside one more loop over an array of this size or a slice; `none` if
references go wrong. -/
def Nest.enter : Nest → Option Nat → Option Nest
  | .outside, some 1 => some .units
  | .outside, _ => some .one
  | .units, some 1 => some .units
  | _, _ => none

theorem Nest.enter_eq_some {n n' : Nest} {size : Option Nat} (h : n.enter size = some n') :
    (n = .outside ∧ size = some 1 ∧ n' = .units) ∨ (n = .outside ∧ n' = .one) ∨
      (n = .units ∧ size = some 1 ∧ n' = .units) := by
  rw [Nest.enter.eq_def] at h
  split at h <;> simp_all

variable {p : List Step}

namespace GoType

mutual

def carries : GoType → Bool
  | prim _ => true
  | slice _ => true
  | array size t => size != 0 && t.carries
  | struct ts => carriesAny ts

def carriesAny : List GoType → Bool
  | [] => false
  | t :: ts => t.carries || carriesAny ts

end

mutual

/-- Everything that is coded in the type is coded where references are right. -/
def indexable : Nest → GoType → Bool
  | _, prim _ => true
  | n, slice t =>
    match n.enter none with
    | some n => t.indexable n
    | none => !t.carries
  | n, array size t =>
    size == 0 ||
      match n.enter (some size) with
      | some n => t.indexable n
      | none => !t.carries
  | n, struct ts => indexableAll n ts

def indexableAll : Nest → List GoType → Bool
  | _, [] => true
  | n, t :: ts => t.indexable n && indexableAll n ts

end

mutual

def encoding : GoType → Value → Encoder → Encoder
  | prim k, v, e =>
    match v.as k with
    | some x => e.write k x
    | none => e
  | slice t, .list vs, e =>
    vs.foldl (fun e x => t.encoding x e) (e.writeUint32 (.ofNat vs.length))
  | array _ t, .list vs, e => vs.foldl (fun e x => t.encoding x e) e
  | struct ts, .struct vs, e => encodings ts vs e
  | _, _, e => e

def encodings : List GoType → List Value → Encoder → Encoder
  | t :: ts, x :: xs, e => encodings ts xs (t.encoding x e)
  | _, _, e => e

end

theorem buf_isPrefix_foldl {α : Type} {g : Encoder → α → Encoder}
    (hg : ∀ e x, e.buf <+: (g e x).buf) (l : List α) (e : Encoder) :
    e.buf <+: (l.foldl g e).buf := by
  induction l generalizing e with
  | nil => exact prefix_rfl
  | cons x l ih => exact (hg e x).trans (ih (g e x))

mutual

theorem buf_isPrefix_encoding (t : GoType) (x : Value) (e : Encoder) :
    e.buf <+: (t.encoding x e).buf := by
  cases t with
  | prim k =>
    rw [encoding]
    split
    · exact Encoder.buf_isPrefix_write k _ e
    · exact prefix_rfl
  | slice t =>
    cases x with
    | list vs =>
      rw [encoding]
      exact (Encoder.buf_isPrefix_write .uint32 _ e).trans
        (buf_isPrefix_foldl (fun e x => buf_isPrefix_encoding t x e) vs _)
    | _ => exact prefix_rfl
  | array size t =>
    cases x with
    | list vs =>
      rw [encoding]
      exact buf_isPrefix_foldl (fun e x => buf_isPrefix_encoding t x e) vs _
    | _ => exact prefix_rfl
  | struct ts =>
    cases x with
    | struct vs =>
      rw [encoding]
      exact buf_isPrefix_encodings ts vs e
    | _ => exact prefix_rfl

theorem buf_isPrefix_encodings (ts : List GoType) (xs : List Value) (e : Encoder) :
    e.buf <+: (encodings ts xs e).buf := by
  cases ts with
  | nil => exact prefix_rfl
  | cons t ts =>
    cases xs with
    | nil => exact prefix_rfl
    | cons x xs =>
      rw [encodings]
      exact (buf_isPrefix_encoding t x e).trans (buf_isPrefix_encodings ts xs _)

end

/-! ## Types that carry nothing -/

mutual

theorem exec_enc_of_not_carries (t : GoType) (h : t.carries = false) (ref : Ref) (env : Env)
    (e : Encoder) : (t.enc ref).exec env e = some e := by
  cases t with
  | array size t =>
    rw [carries, and_eq_false_iff] at h
    rw [enc, code]
    rcases h with hzero | helem
    · obtain rfl : size = 0 := by simpa using hzero
      rfl
    · exact foldlM_noop (fun i e => exec_enc_of_not_carries t helem ref.index { env with i } e)
        (range size) e
  | struct ts =>
    rw [carries] at h
    rw [enc, code]
    exact exec_encs_of_not_carries ts h ref 0 env e
  | _ => rw [carries] at h; cases h

theorem exec_encs_of_not_carries (ts : List GoType) (h : carriesAny ts = false) (ref : Ref)
    (k : Nat) (env : Env) (e : Encoder) :
    (Enc.block (codes encoder ts ref k)).exec env e = some e := by
  cases ts with
  | nil => rw [codes]; rfl
  | cons t ts =>
    rw [carriesAny, Bool.or_eq_false_iff] at h
    rw [codes, Enc.block, foldr_cons, Enc.exec, exec_enc_of_not_carries t h.1, bind_some]
    exact exec_encs_of_not_carries ts h.2 ref (k + 1) env e

end

mutual

theorem exec_dec_of_not_carries (t : GoType) (h : t.carries = false) (dest : Ref) (i : Nat)
    (s : Value × Decoder) : (t.dec dest).exec i s = .ok s := by
  cases t with
  | array size t =>
    rw [carries, and_eq_false_iff] at h
    rw [dec, code]
    rcases h with hzero | helem
    · obtain rfl : size = 0 := by simpa using hzero
      rfl
    · exact foldlM_noop (fun j s => exec_dec_of_not_carries t helem dest.index j s)
        (range size) s
  | struct ts =>
    rw [carries] at h
    rw [dec, code]
    exact exec_decs_of_not_carries ts h dest 0 i s
  | _ => rw [carries] at h; cases h

theorem exec_decs_of_not_carries (ts : List GoType) (h : carriesAny ts = false) (dest : Ref)
    (k i : Nat) (s : Value × Decoder) : (Dec.block (codes decoder ts dest k)).exec i s = .ok s := by
  cases ts with
  | nil => rw [codes]; rfl
  | cons t ts =>
    rw [carriesAny, Bool.or_eq_false_iff] at h
    rw [codes, Dec.block, foldr_cons, Dec.exec, exec_dec_of_not_carries t h.1]
    exact exec_decs_of_not_carries ts h.2 dest (k + 1) i s

end

mutual

theorem eq_zero_of_not_carries (t : GoType) (h : t.carries = false) {x : Value} (hx : t.Holds x) :
    x = t.zero ∧ ∀ e, t.encoding x e = e := by
  cases t with
  | array size t =>
    rw [Holds] at hx
    obtain ⟨vs, rfl, hlen, hvs⟩ := hx
    rw [carries, and_eq_false_iff] at h
    rcases h with hzero | helem
    · obtain rfl : size = 0 := by simpa using hzero
      obtain rfl := length_eq_zero_iff.1 hlen
      exact ⟨by rw [zero]; rfl, fun e => by rw [encoding]; rfl⟩
    · have helems := fun x hx => eq_zero_of_not_carries t helem (hvs x hx)
      refine ⟨?_, fun e => ?_⟩
      · rw [zero, eq_replicate_of_mem fun x hx => (helems x hx).1, hlen]
      · rw [encoding]
        exact foldl_noop (fun x hx e => (helems x hx).2 e) e
  | struct ts =>
    rw [Holds] at hx
    obtain ⟨vs, rfl, hvs⟩ := hx
    rw [carries] at h
    have hall := eq_zeros_of_not_carries ts h hvs
    exact ⟨by rw [zero, hall.1], fun e => by rw [encoding]; exact hall.2 e⟩
  | _ => rw [carries] at h; cases h

theorem eq_zeros_of_not_carries (ts : List GoType) (h : carriesAny ts = false) {xs : List Value}
    (hxs : HoldsAll ts xs) : xs = zeros ts ∧ ∀ e, encodings ts xs e = e := by
  cases ts with
  | nil =>
    rw [HoldsAll] at hxs
    subst hxs
    exact ⟨by rw [zeros], fun e => by rw [encodings]; exact fun _ _ _ _ h => by cases h⟩
  | cons t ts =>
    rw [HoldsAll] at hxs
    obtain ⟨x, xs, rfl, hx, hxs⟩ := hxs
    rw [carriesAny, or_eq_false_iff] at h
    have hhead := eq_zero_of_not_carries t h.1 hx
    have htail := eq_zeros_of_not_carries ts h.2 hxs
    refine ⟨by rw [zeros, ← hhead.1, ← htail.1], fun e => ?_⟩
    rw [encodings, hhead.2, htail.2]

end

/-! ## Entering a loop -/

/-- Of a reference below the given loops, while `_i` is `i`: outside all loops it does not mention
`_i`, in loops over single elements `_i` is zero. -/
def Fresh : Nest → Ref → Nat → Prop
  | .outside, ref, _ => .index ∉ ref.sels
  | .units, _, i => i = 0
  | .one, _, _ => True

theorem path_eq_of_not_mem {ref : Ref} (h : .index ∉ ref.sels) (i j : Nat) :
    ref.path i = ref.path j := by
  apply map_congr_left
  intro sel hsel
  cases sel with
  | field k => rfl
  | index => exact absurd hsel h

theorem Fresh.enter {n n' : Nest} {size : Option Nat} {ref : Ref} {i j : Nat}
    (hfresh : Fresh n ref i) (hn : n.enter size = some n') (hj : ∀ k, size = some k → j < k) :
    ref.path j = ref.path i ∧ ∀ ref', Fresh n' ref' j := by
  rcases Nest.enter_eq_some hn with ⟨rfl, rfl, rfl⟩ | ⟨rfl, rfl⟩ | ⟨rfl, rfl, rfl⟩
  · exact ⟨path_eq_of_not_mem hfresh j i, fun _ => Nat.lt_one_iff.1 (hj 1 rfl)⟩
  · exact ⟨path_eq_of_not_mem hfresh j i, fun _ => trivial⟩
  · obtain rfl : i = 0 := hfresh
    obtain rfl : j = 0 := Nat.lt_one_iff.1 (hj 1 rfl)
    exact ⟨rfl, fun _ => rfl⟩

theorem Fresh.field {n : Nest} {ref : Ref} {i : Nat} (h : Fresh n ref i) (k : Nat) :
    Fresh n (ref.field k) i := by
  cases n with
  | outside =>
    intro hmem
    rcases mem_append.1 hmem with hmem | hmem
    · exact h hmem
    · cases mem_singleton.1 hmem
  | units => exact h
  | one => trivial

theorem get_snoc {step : Step} {v x : Value} (h : get p v = some x) :
    get (p ++ [step]) v = x.child step := by
  rw [get_append, h, bind_some, get_cons]
  exact bind_fun_some _

mutual

/-- For an indexable type the encoding statements append the encoding. -/
theorem exec_enc (t : GoType) {n : Nest} (ht : t.indexable n) {ref : Ref} (env : Env)
    (hfresh : Fresh n ref env.i) {x : Value} (hx : t.Holds x) (hget : env.get ref = some x)
    (e : Encoder) : (t.enc ref).exec env e = some (t.encoding x e) := by
  cases t with
  | prim k =>
    rw [Holds] at hx
    obtain ⟨x, rfl, -⟩ := hx
    rw [enc, code, encoding, Value.as_prim]
    simp only [encoder, Enc.exec, hget, bind_some, Value.as_prim, map_some]
  | slice t =>
    rw [Holds] at hx
    obtain ⟨vs, rfl, -, hvs⟩ := hx
    rw [enc, code, encoding]
    simp only [encoder, Enc.exec, hget, bind_some]
    apply Loop.foldlM_eq_foldl
    intro x hx e
    rw [indexable] at ht
    cases hn : n.enter none with
    | some n' =>
      simp only [hn] at ht
      have hfresh' := (hfresh.enter hn (j := env.i) fun k hk => by cases hk).2 .elem
      exact exec_enc t ht { env with elem := x } hfresh' (hvs x hx) rfl e
    | none =>
      simp only [hn, not_eq_true'] at ht
      rw [(eq_zero_of_not_carries t ht (hvs x hx)).2]
      exact exec_enc_of_not_carries t ht _ _ e
  | array size t =>
    rw [Holds] at hx
    obtain ⟨vs, rfl, rfl, hvs⟩ := hx
    rw [enc, code, encoding]
    simp only [encoder, Enc.exec]
    apply Loop.foldlM_positions
    intro i hi e
    rw [indexable, or_eq_true] at ht
    replace ht := ht.resolve_left fun hzero => by
      rw [beq_iff_eq] at hzero
      omega
    have hxi := hvs _ (getElem_mem hi)
    cases hn : n.enter (some vs.length) with
    | some n' =>
      simp only [hn] at ht
      have henter := hfresh.enter hn (j := i) fun k hk => by cases hk; exact hi
      refine exec_enc t ht { env with i } (henter.2 ref.index) hxi ?_ e
      have hpath : get (ref.path i) (env.var ref.base) = some (.list vs) := by
        rw [henter.1]
        exact hget
      rw [Env.get, path_index]
      exact (get_snoc hpath).trans (getElem?_eq_getElem hi)
    | none =>
      simp only [hn, not_eq_true'] at ht
      rw [(eq_zero_of_not_carries t ht hxi).2]
      exact exec_enc_of_not_carries t ht _ _ e
  | struct ts =>
    rw [Holds] at hx
    obtain ⟨vs, rfl, hvs⟩ := hx
    rw [indexable] at ht
    rw [enc, code, encoding]
    refine exec_encs ts ht hfresh hvs (fun j x hj => ?_) e
    rw [Env.get, path_field, Nat.zero_add]
    exact (get_snoc hget).trans hj

theorem exec_encs (ts : List GoType) {n : Nest} (hts : indexableAll n ts) {ref : Ref} {env : Env}
    (hfresh : Fresh n ref env.i) {xs : List Value} (hxs : HoldsAll ts xs) {k : Nat}
    (hget : ∀ j x, xs[j]? = some x → env.get (ref.field (k + j)) = some x) (e : Encoder) :
    (Enc.block (codes encoder ts ref k)).exec env e = some (encodings ts xs e) := by
  cases ts with
  | nil =>
    rw [HoldsAll] at hxs
    subst hxs
    rw [codes, encodings]
    · rfl
    · exact fun _ _ _ _ h => by cases h
  | cons t ts =>
    rw [HoldsAll] at hxs
    obtain ⟨x, xs, rfl, hx, hxs⟩ := hxs
    rw [indexableAll, and_eq_true] at hts
    have hhead := exec_enc t hts.1 env (hfresh.field k) hx (hget 0 x rfl) e
    rw [codes, Enc.block, foldr_cons, Enc.exec, hhead, bind_some, encodings]
    refine exec_encs ts hts.2 hfresh hxs (fun j y hj => ?_) _
    rw [Nat.add_assoc, Nat.add_comm 1 j]
    exact hget (j + 1) y hj

end

/-! ## Decoding -/

variable {vs : List Value}

theorem put_snoc {v w w' c x : Value} {st : Step} (h : get p v = some w)
    (hchild : Path.Node.child st w = some c) (hrep : Path.Node.replace st x w = some w') :
    put (p ++ [st]) x v = put p w' v :=
  put_append h ((put_cons_of hchild (put_nil x _)).trans hrep)

theorem put_snoc_idx {v x : Value} {j : Nat} (h : get p v = some (.list vs)) (hj : j < vs.length) :
    put (p ++ [.idx j]) x v = put p (.list (vs.set j x)) v :=
  put_snoc h (getElem?_eq_getElem hj) (if_pos hj)

theorem put_snoc_field {v x : Value} {k : Nat} (h : get p v = some (.struct vs))
    (hk : k < vs.length) : put (p ++ [.field k]) x v = put p (.struct (vs.set k x)) v :=
  put_snoc h (getElem?_eq_getElem hk) (if_pos hk)

theorem set_take_append_replicate {z : Value} {k : Nat} (hk : k < vs.length) :
    (vs.take k ++ replicate (vs.length - k) z).set k vs[k] =
      vs.take (k + 1) ++ replicate (vs.length - (k + 1)) z := by
  have hsplit : vs.length - k = vs.length - (k + 1) + 1 := by omega
  rw [hsplit, replicate_succ, set_append_right _ _ (length_take_le k vs),
    length_take_of_le hk.le, Nat.sub_self, set_cons_zero,
    take_succ_eq_append_getElem hk, append_assoc]
  rfl

/-- `c`, while `_i` is `i`, reads `x` from the bytes between the encoders and puts it at the
path. -/
def Decodes (c : Dec) (i : Nat) (p : List Step) (x : Value) (buf : Bytes) (e e' : Encoder)
    (v : Value) : Prop :=
  ∃ v', Path.put p x v = some v' ∧
    c.exec i (v, ⟨buf, e.buf.length⟩) = .ok (v', ⟨buf, e'.buf.length⟩)

theorem foldlM_decodes {t : GoType} {c : Dec} {buf : Bytes}
    (hround : ∀ j (hj : j < vs.length) v e, Path.get (p ++ [.idx j]) v = some t.zero →
      (t.encoding vs[j] e).buf <+: buf →
      Decodes c j (p ++ [.idx j]) vs[j] buf e (t.encoding vs[j] e) v) {v : Value}
    (hget : get p v = some (.list (replicate vs.length t.zero))) (e : Encoder)
    (hbuf : (vs.foldl (fun e x => t.encoding x e) e).buf <+: buf) :
    ∃ v', put p (.list vs) v = some v' ∧
      (range vs.length).foldlM (fun s j => c.exec j s) (v, ⟨buf, e.buf.length⟩) =
        .ok (v', ⟨buf, (vs.foldl (fun e x => t.encoding x e) e).buf.length⟩) := by
  let after := fun k => (vs.take k).foldl (fun e x => t.encoding x e) e
  -- after `k` rounds the first `k` elements are in place and the others still zero
  have hloop := foldlM_range (m := Except Fault) (f := fun s j => c.exec j s)
    (n := vs.length) (s := (v, ⟨buf, e.buf.length⟩))
    (fun k s => ∃ w, s = (w, ⟨buf, (after k).buf.length⟩) ∧
      put p (.list (vs.take k ++ replicate (vs.length - k) t.zero)) v = some w)
    (fun k hk s => ?_) ⟨v, rfl, by simpa using put_get hget⟩
  · obtain ⟨s', hrun, w, rfl, hput⟩ := hloop
    refine ⟨w, by simpa using hput, ?_⟩
    simp only [after, take_length] at hrun
    exact hrun
  · rintro ⟨w, rfl, hput⟩
    have hsucc : after (k + 1) = t.encoding vs[k] (after k) := by
      simp only [after, take_succ_eq_append_getElem hk, foldl_append]
      rfl
    have hbuf' : (t.encoding vs[k] (after k)).buf <+: buf := by
      rw [← hsucc]
      refine List.IsPrefix.trans ?_ hbuf
      rw [← take_append_drop (k + 1) vs, foldl_append]
      exact buf_isPrefix_foldl (fun e x => buf_isPrefix_encoding t x e) _ _
    have hlist := get_put hput
    have hlen : k < (vs.take k ++ replicate (vs.length - k) t.zero).length := by
      simp only [length_append, length_take, length_replicate]
      omega
    have hzero : get (p ++ [.idx k]) w = some t.zero := by
      rw [get_snoc hlist, Value.child_idx, getElem?_append_right (by simp),
        getElem?_replicate_of_lt (by simp; omega)]
    obtain ⟨w', hput', hexec⟩ := hround k hk w (after k) hzero hbuf'
    refine ⟨_, hexec, w', by rw [hsucc], ?_⟩
    rw [put_snoc_idx hlist hlen, put_put hput] at hput'
    rw [← hput', set_take_append_replicate hk]

theorem decodes_read {k : Kind} {x : k.Val} (hx : k.Fits x) {dest : Ref} {i : Nat} {v y : Value}
    (hget : get (dest.path i) v = some y) {e : Encoder} {buf : Bytes}
    (hbuf : (e.write k x).buf <+: buf) :
    Decodes (.read k dest) i (dest.path i) (.prim k x) buf e (e.write k x) v := by
  obtain ⟨v', hput⟩ := exists_put (.prim k x) hget
  refine ⟨v', hput, ?_⟩
  simp only [Dec.exec, Decoder.read_write x hx e hbuf, assign, hput]

theorem decodes_make {t : GoType} {size : Nat} (hsize : size < 2 ^ 32 - 1) {dest : Ref} {i : Nat}
    {v y : Value} (hget : get (dest.path i) v = some y) {e : Encoder} {buf : Bytes}
    (hbuf : (e.writeUint32 (.ofNat size)).buf <+: buf) :
    Decodes (.make dest (some t)) i (dest.path i) (.list (replicate size t.zero)) buf e
      (e.writeUint32 (.ofNat size)) v := by
  obtain ⟨v', hput⟩ := exists_put (.list (replicate size t.zero)) hget
  have hread := Decoder.read_write (k := .uint32) (.ofNat size) trivial e hbuf
  have hnat : (UInt32.ofNat size).toNat = size :=
    UInt32.toNat_ofNat_of_lt' (by show _ < 4294967296; omega)
  refine ⟨v', hput, ?_⟩
  rw [Decoder.read] at hread
  simp only [Dec.exec, hread, hnat, assign, hput]
  rfl

def Decoded (t : GoType) : Prop :=
  ∀ {n : Nest}, t.indexable n → ∀ {dest : Ref} {i : Nat}, Fresh n dest i →
    ∀ {x : Value}, t.Holds x → ∀ {v : Value}, Path.get (dest.path i) v = some t.zero →
    ∀ (e : Encoder) {buf : Bytes}, (t.encoding x e).buf <+: buf →
      Decodes (t.dec dest) i (dest.path i) x buf e (t.encoding x e) v

theorem decodes_elems {t : GoType} (hdec : t.Decoded) {n : Nest} {size : Option Nat}
    (ht : (match n.enter size with | some n => t.indexable n | none => !t.carries) = true)
    {dest : Ref} {i : Nat} (hfresh : Fresh n dest i)
    (hsize : ∀ k, size = some k → k = vs.length) (hvs : ∀ x ∈ vs, t.Holds x) {v : Value}
    (hget : get (dest.path i) v = some (.list (replicate vs.length t.zero)))
    (e : Encoder) {buf : Bytes} (hbuf : (vs.foldl (fun e x => t.encoding x e) e).buf <+: buf) :
    ∃ v', put (dest.path i) (.list vs) v = some v' ∧
      (range vs.length).foldlM (fun s j => (t.dec dest.index).exec j s) (v, ⟨buf, e.buf.length⟩) =
        .ok (v', ⟨buf, (vs.foldl (fun e x => t.encoding x e) e).buf.length⟩) := by
  cases hn : n.enter size with
  | some n' =>
    simp only [hn] at ht
    refine foldlM_decodes (fun j hj v e hzero hbuf => ?_) hget e hbuf
    obtain ⟨hpath, hfresh'⟩ := hfresh.enter hn (j := j) fun k hk => hsize k hk ▸ hj
    have hindex : dest.index.path j = dest.path i ++ [.idx j] := by
      rw [path_index, hpath]
    rw [← hindex] at hzero ⊢
    exact hdec ht (hfresh' dest.index) (hvs _ (getElem_mem hj)) hzero e hbuf
  | none =>
    simp only [hn, not_eq_true'] at ht
    have hzeros : vs = replicate vs.length t.zero :=
      eq_replicate_of_mem fun x hx => (eq_zero_of_not_carries t ht (hvs x hx)).1
    refine ⟨v, by rw [hzeros]; simpa using put_get hget, ?_⟩
    rw [foldl_noop fun x hx e => (eq_zero_of_not_carries t ht (hvs x hx)).2 e]
    exact foldlM_noop (fun j s => exec_dec_of_not_carries t ht dest.index j s) _ _

mutual

/-- For an indexable type the decoding statements turn the zero value into the value whose encoding
they read. -/
theorem exec_dec (t : GoType) : t.Decoded := by
  intro n ht dest i hfresh x hx v hget e buf hbuf
  cases t with
  | prim k =>
    rw [Holds] at hx
    obtain ⟨x, rfl, hfits⟩ := hx
    rw [encoding, Value.as_prim] at hbuf ⊢
    rw [dec, code]
    exact decodes_read hfits hget hbuf
  | slice t =>
    rw [Holds] at hx
    obtain ⟨vs, rfl, hlen, hvs⟩ := hx
    rw [indexable] at ht
    rw [encoding] at hbuf ⊢
    have hfirst := (buf_isPrefix_foldl (fun e x => buf_isPrefix_encoding t x e) vs _).trans hbuf
    obtain ⟨v₁, hput₁, hmake⟩ := decodes_make (t := t) hlen hget hfirst
    have hget₁ := get_put hput₁
    obtain ⟨v', hput', hloop⟩ :=
      decodes_elems (exec_dec t) ht hfresh (fun _ h => by cases h) hvs hget₁ _ hbuf
    refine ⟨v', (put_put hput₁).symm.trans hput', ?_⟩
    rw [dec, code]
    simp only [decoder, Dec.exec] at hmake ⊢
    rw [hmake]
    simp only [Except.bind, hget₁, length_replicate]
    exact hloop
  | array size t =>
    rw [Holds] at hx
    obtain ⟨vs, rfl, rfl, hvs⟩ := hx
    rw [indexable, or_eq_true] at ht
    rw [encoding] at hbuf ⊢
    rw [zero] at hget
    rw [dec, code]
    by_cases hempty : vs.length = 0
    · obtain rfl := length_eq_zero_iff.1 hempty
      exact ⟨v, put_get hget, rfl⟩
    · replace ht := ht.resolve_left fun hzero => hempty (beq_iff_eq.1 hzero)
      exact decodes_elems (exec_dec t) ht hfresh (fun k hk => (Option.some.inj hk).symm) hvs hget e
        hbuf
  | struct ts =>
    rw [Holds] at hx
    obtain ⟨vs, rfl, hvs⟩ := hx
    rw [indexable] at ht
    rw [encoding] at hbuf ⊢
    rw [zero] at hget
    rw [dec, code]
    exact exec_decs ts ht hfresh hvs [] hget e hbuf

theorem exec_decs (ts : List GoType) {n : Nest} (hts : indexableAll n ts) {dest : Ref} {i : Nat}
    (hfresh : Fresh n dest i) {xs : List Value} (hxs : HoldsAll ts xs) (done : List Value)
    {v : Value} (hget : get (dest.path i) v = some (.struct (done ++ zeros ts))) (e : Encoder)
    {buf : Bytes} (hbuf : (encodings ts xs e).buf <+: buf) :
    Decodes (.block (codes decoder ts dest done.length)) i (dest.path i) (.struct (done ++ xs)) buf
      e (encodings ts xs e) v := by
  cases ts with
  | nil =>
    rw [HoldsAll] at hxs
    subst hxs
    rw [codes, encodings]
    · rw [zeros] at hget
      exact ⟨v, put_get hget, rfl⟩
    · exact fun _ _ _ _ h => by cases h
  | cons t ts =>
    rw [HoldsAll] at hxs
    obtain ⟨x, xs, rfl, hx, hxs⟩ := hxs
    rw [indexableAll, and_eq_true] at hts
    rw [encodings] at hbuf ⊢
    rw [zeros] at hget
    have hzero : get ((dest.field done.length).path i) v = some t.zero := by
      rw [path_field, get_snoc hget]
      simp
    obtain ⟨v₁, hput₁, hhead⟩ := exec_dec t hts.1 (hfresh.field done.length) hx hzero e
      ((buf_isPrefix_encodings ts xs _).trans hbuf)
    rw [path_field, put_snoc_field hget (by simp)] at hput₁
    have hset : (done ++ t.zero :: zeros ts).set done.length x = done ++ [x] ++ zeros ts := by simp
    rw [hset] at hput₁
    obtain ⟨v', hput', htail⟩ :=
      exec_decs ts hts.2 hfresh hxs (done ++ [x]) (get_put hput₁) _ hbuf
    rw [append_assoc, singleton_append] at hput'
    refine ⟨v', (put_put hput₁).symm.trans hput', ?_⟩
    rw [length_append, length_singleton] at htail
    rw [codes, Dec.block, foldr_cons, Dec.exec, hhead]
    exact htail

end

end GoType

end GoDDS.Tools.Idl
