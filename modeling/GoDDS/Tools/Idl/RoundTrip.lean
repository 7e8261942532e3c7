import GoDDS.Tools.Idl.Nesting

/-!
# Round trips through generated code

The decoding statements only assign at places all of whose positions are the same number. Everything
off this diagonal keeps its zero value (`Blank`), and below two loops there is such a place.
-/

namespace GoDDS.Tools.Idl

open ByteCodec Go Cdr List Option Path

theorem Decoder.new_of_isPrefix {data : Bytes} (h : encapHeader <+: data) :
    Decoder.new data = .ok ⟨data, encapHeader.length⟩ := by
  obtain ⟨rest, rfl⟩ := h
  have hlen : ¬ (encapHeader ++ rest).length < encapHeaderLen := by
    simp [encapHeader, encapHeaderLen]
  have hscheme : u16BEAt (encapHeader ++ rest) 0 = 0x0001 := by
    simp only [u16BEAt, slice, encapHeader, cons_append, take_succ_cons, take_zero]
    rfl
  simp only [Decoder.new, if_neg hlen, hscheme]
  rfl

def GoType.codec (t : GoType) : Codec := ⟨t.enc .v, t.dec .v⟩

open GoType

theorem roundTrip_of_indexable {t : GoType} (ht : t.indexable .outside) {x : Value}
    (hx : t.Holds x) : t.codec.roundTrip t x = .ok x := by
  have hfresh : GoType.Fresh .outside .v 0 := not_mem_nil
  have hmarshal : t.codec.Marshal x = some (t.encoding x .new).buf := by
    have henc := exec_enc t ht ⟨x, x, 0⟩ hfresh hx rfl .new
    simp only [Codec.Marshal, codec, henc, map_some]
  have hnew := Decoder.new_of_isPrefix (buf_isPrefix_encoding t x .new)
  obtain ⟨v', hput, hdec⟩ := exec_dec t ht hfresh hx (v := t.zero) rfl .new prefix_rfl
  obtain rfl : x = v' := some.inj hput
  have hunmarshal : t.codec.Unmarshal t (t.encoding x .new).buf = .ok x := by
    simp only [Codec.Unmarshal, hnew]
    exact congrArg (Except.map Prod.fst) hdec
  simp only [Codec.roundTrip, hmarshal, hunmarshal]

/-! ## Off the diagonal -/

namespace GoType

def child : Step → GoType → Option GoType
  | .field k, struct ts => ts[k]?
  | .idx _, slice t => some t
  | .idx _, array _ t => some t
  | _, _ => none

def part : List Step → GoType → Option GoType
  | [], t => some t
  | step :: p, t => (t.child step).bind (part p)

theorem part_append (p q : List Step) (t : GoType) : t.part (p ++ q) = (t.part p).bind (part q) := by
  induction p generalizing t with
  | nil => rfl
  | cons step p ih =>
    rw [cons_append, part, part, bind_assoc]
    congr 1
    funext c
    exact ih c

end GoType

def OffDiagonal (p : List Step) : Prop :=
  ∃ a b, Step.idx a ∈ p ∧ Step.idx b ∈ p ∧ a ≠ b

theorem not_offDiagonal_path (ref : Ref) (i : Nat) : ¬ OffDiagonal (ref.path i) := by
  have hpos : ∀ a, Step.idx a ∈ ref.path i → a = i := by
    intro a ha
    obtain ⟨sel, -, hsel⟩ := mem_map.1 ha
    cases sel with
    | field k => cases hsel
    | index => exact (Step.idx.inj hsel).symm
  rintro ⟨a, b, ha, hb, hne⟩
  exact hne ((hpos a ha).trans (hpos b hb).symm)

theorem OffDiagonal.append {p : List Step} (h : OffDiagonal p) (q : List Step) :
    OffDiagonal (p ++ q) := by
  obtain ⟨a, b, ha, hb, hne⟩ := h
  exact ⟨a, b, mem_append_left q ha, mem_append_left q hb, hne⟩

/-- Off the diagonal everything in a value of type `t` is zero. -/
def Blank (t : GoType) (v : Value) : Prop :=
  ∀ p u x, OffDiagonal p → t.part p = some u → Path.get p v = some x → x = u.zero

namespace GoType

theorem getElem?_zeros (ts : List GoType) (k : Nat) : (zeros ts)[k]? = ts[k]?.map zero := by
  induction ts generalizing k with
  | nil => simp [zeros]
  | cons t ts ih =>
    cases k with
    | zero => simp [zeros]
    | succ k => simp [zeros, ih]

theorem child_zero {t u : GoType} {step : Step} {x : Value} (ht : t.child step = some u)
    (hx : t.zero.child step = some x) : x = u.zero := by
  cases t with
  | prim k => cases step <;> cases ht
  | slice t =>
    cases step with
    | field k => cases ht
    | idx j =>
      rw [zero] at hx
      cases hx
  | array size t =>
    cases step with
    | field k => cases ht
    | idx j =>
      obtain rfl : t = u := some.inj ht
      rw [zero, Value.child_idx] at hx
      exact eq_of_mem_replicate (mem_of_getElem? hx)
  | struct ts =>
    cases step with
    | idx j => cases ht
    | field k =>
      rw [zero, Value.child_field, getElem?_zeros, show ts[k]? = some u from ht] at hx
      exact (some.inj hx).symm

theorem get_zero {t u : GoType} {p : List Step} {x : Value} (ht : t.part p = some u)
    (hx : get p t.zero = some x) : x = u.zero := by
  induction p generalizing t with
  | nil =>
    obtain rfl : t = u := some.inj ht
    exact (some.inj hx).symm
  | cons step p ih =>
    obtain ⟨c, hc, hat⟩ := bind_eq_some_iff.1 ht
    obtain ⟨y, hy, hget⟩ := bind_eq_some_iff.1 hx
    obtain rfl := child_zero hc hy
    exact ih hat hget

theorem blank_zero (t : GoType) : Blank t t.zero := fun _ _ _ _ ht hx => get_zero ht hx

/-- What is below a value just assigned to a place of the given type is zero. -/
def Shallow (t : GoType) (y : Value) : Prop :=
  ∀ step u x, t.child step = some u → y.child step = some x → x = u.zero

theorem shallow_prim (k : Kind) (y : Value) : (prim k).Shallow y := by
  intro step u x hu
  cases step <;> cases hu

theorem shallow_make (t : GoType) (size : Nat) :
    (slice t).Shallow (.list (replicate size t.zero)) := by
  intro step u x hu hx
  cases step with
  | field k => cases hu
  | idx j =>
    obtain rfl : t = u := some.inj hu
    exact eq_of_mem_replicate (mem_of_getElem? hx)

end GoType

theorem Blank.put {root t : GoType} {v v' y : Value} {q : List Step} (hv : Blank root v)
    (hq : ¬ OffDiagonal q) (hat : root.part q = some t) (hy : t.Shallow y)
    (hput : put q y v = some v') : Blank root v' := by
  intro p u x hp hu hx
  by_cases hqp : q <+: p
  · -- below the place assigned to
    obtain ⟨s, rfl⟩ := hqp
    rw [part_append, hat, bind_some] at hu
    rw [get_append, get_put hput, bind_some] at hx
    cases s with
    | nil => exact absurd (by simpa using hp) hq
    | cons step s =>
      obtain ⟨c, hc, hu⟩ := bind_eq_some_iff.1 hu
      obtain ⟨z, hz, hx⟩ := bind_eq_some_iff.1 hx
      obtain rfl := hy step c z hc hz
      exact get_zero hu hx
  · by_cases hpq : p <+: q
    · obtain ⟨s, rfl⟩ := hpq
      exact absurd (hp.append s) hq
    · rw [get_put_of_diverge hpq hqp hput] at hx
      exact hv p u x hp hu hx

theorem assign_eq_ok {p : List Step} {x v : Value} {d : Decoder} {s : Value × Decoder}
    (h : assign p x v d = .ok s) : put p x v = some s.1 := by
  rw [assign] at h
  split at h
  · next v' hput =>
    obtain rfl := Except.ok.inj h
    exact hput
  · cases h

theorem exec_seq_eq_ok {a b : Dec} {i : Nat} {s s' : Value × Decoder}
    (h : (Dec.seq a b).exec i s = .ok s') : ∃ t, a.exec i s = .ok t ∧ b.exec i t = .ok s' := by
  rw [Dec.exec] at h
  cases ha : a.exec i s with
  | error err =>
    rw [ha] at h
    cases h
  | ok t =>
    rw [ha] at h
    exact ⟨t, rfl, h⟩

namespace GoType

theorem part_index {root t : GoType} (step : GoType → GoType) {dest : Ref}
    (hat : ∀ j, root.part (dest.path j) = some (step t))
    (hstep : ∀ j, (step t).child (.idx j) = some t) (j : Nat) :
    root.part (dest.index.path j) = some t := by
  rw [Ref.path_index, part_append, hat, bind_some, part, hstep]
  rfl

mutual

theorem blank_exec_dec (t : GoType) {root : GoType} {dest : Ref}
    (hat : ∀ j, root.part (dest.path j) = some t) {i : Nat} {s s' : Value × Decoder}
    (hs : Blank root s.1) (h : (t.dec dest).exec i s = .ok s') : Blank root s'.1 := by
  cases t with
  | prim k =>
    rw [dec, code] at h
    simp only [decoder, Dec.exec] at h
    split at h
    · cases h
    · exact hs.put (not_offDiagonal_path dest i) (hat i) (shallow_prim k _) (assign_eq_ok h)
  | slice t =>
    rw [dec, code] at h
    obtain ⟨r, hmake, hloop⟩ := exec_seq_eq_ok h
    have hr : Blank root r.1 := by
      simp only [Dec.exec] at hmake
      split at hmake
      · cases hmake
      · next hsome =>
        obtain rfl := some.inj hsome
        exact hs.put (not_offDiagonal_path dest i) (hat i) (shallow_make t _) (assign_eq_ok hmake)
      · cases hmake
    simp only [Dec.exec] at hloop
    split at hloop
    · exact Loop.foldlM_keeps (P := fun s => Blank root s.1)
        (fun j s s' hs h => blank_exec_dec t (part_index slice hat fun _ => rfl) hs h)
        hr hloop
    · cases hloop
  | array size t =>
    rw [dec, code] at h
    simp only [decoder, Dec.exec] at h
    exact Loop.foldlM_keeps (P := fun s => Blank root s.1)
      (fun j s s' hs h => blank_exec_dec t (part_index (array size) hat fun _ => rfl) hs h)
      hs h
  | struct ts =>
    rw [dec, code] at h
    exact blank_exec_decs ts [] hat hs h

theorem blank_exec_decs (ts : List GoType) {root : GoType} {dest : Ref} (done : List GoType)
    (hat : ∀ j, root.part (dest.path j) = some (struct (done ++ ts))) {i : Nat}
    {s s' : Value × Decoder} (hs : Blank root s.1)
    (h : (Dec.block (codes decoder ts dest done.length)).exec i s = .ok s') : Blank root s'.1 := by
  cases ts with
  | nil =>
    rw [codes] at h
    obtain rfl : s = s' := Except.ok.inj h
    exact hs
  | cons t ts =>
    rw [codes] at h
    obtain ⟨r, hhead, htail⟩ := exec_seq_eq_ok h
    have hfield : ∀ j, root.part ((dest.field done.length).path j) = some t := by
      intro j
      rw [Ref.path_field, part_append, hat, bind_some, part, child]
      simp [part]
    have hat' : ∀ j, root.part (dest.path j) = some (struct (done ++ [t] ++ ts)) := by
      intro j
      rw [append_assoc, singleton_append]
      exact hat j
    have htail' : (Dec.block (codes decoder ts dest (done ++ [t]).length)).exec i r = .ok s' := by
      rw [length_append, length_singleton]
      exact htail
    exact blank_exec_decs ts (done ++ [t]) hat' (blank_exec_dec t hfield hs hhead) htail'

end

/-! ## A value that is lost -/

theorem exists_ne_zero (k : Kind) : ∃ x : k.Val, k.Fits x ∧ x ≠ k.zero := by
  cases k with
  | bool => exact ⟨true, trivial, Bool.noConfusion⟩
  | uint8 => exact ⟨(1 : UInt8), trivial, (by decide : (1 : UInt8) ≠ 0)⟩
  | int8 => exact ⟨(1 : Int8), trivial, (by decide : (1 : Int8) ≠ 0)⟩
  | int16 => exact ⟨(1 : Int16), trivial, (by decide : (1 : Int16) ≠ 0)⟩
  | uint16 => exact ⟨(1 : UInt16), trivial, (by decide : (1 : UInt16) ≠ 0)⟩
  | int32 => exact ⟨(1 : Int32), trivial, (by decide : (1 : Int32) ≠ 0)⟩
  | uint32 => exact ⟨(1 : UInt32), trivial, (by decide : (1 : UInt32) ≠ 0)⟩
  | int64 => exact ⟨(1 : Int64), trivial, (by decide : (1 : Int64) ≠ 0)⟩
  | uint64 => exact ⟨(1 : UInt64), trivial, (by decide : (1 : UInt64) ≠ 0)⟩
  | float32 => exact ⟨(1 : UInt32), trivial, (by decide : (1 : UInt32) ≠ 0)⟩
  | float64 => exact ⟨(1 : UInt64), trivial, (by decide : (1 : UInt64) ≠ 0)⟩
  | _ => exact ⟨[0], by show 1 < 2 ^ 32 - 1; norm_num, cons_ne_nil 0 []⟩

theorem fits_zero (k : Kind) : k.Fits k.zero := by
  cases k with
  | string => show 0 < 2 ^ 32 - 1; norm_num
  | bytes => show 0 < 2 ^ 32 - 1; norm_num
  | _ => trivial

mutual

theorem holds_zero (t : GoType) : t.Holds t.zero := by
  cases t with
  | prim k =>
    rw [Holds, zero]
    exact ⟨_, rfl, fits_zero k⟩
  | slice t =>
    rw [Holds, zero]
    exact ⟨[], rfl, by simp, fun _ h => absurd h not_mem_nil⟩
  | array size t =>
    rw [Holds, zero]
    exact ⟨_, rfl, length_replicate, fun x hx => eq_of_mem_replicate hx ▸ holds_zero t⟩
  | struct ts =>
    rw [Holds, zero]
    exact ⟨_, rfl, holdsAll_zeros ts⟩

theorem holdsAll_zeros (ts : List GoType) : HoldsAll ts (zeros ts) := by
  cases ts with
  | nil => rw [HoldsAll, zeros]
  | cons t ts =>
    rw [HoldsAll, zeros]
    exact ⟨_, _, rfl, holds_zero t, holdsAll_zeros ts⟩

end

/-- Some value of the type is not zero at a place whose path has the property. -/
def Shows (t : GoType) (good : List Step → Prop) : Prop :=
  ∃ x p u y, t.Holds x ∧ t.part p = some u ∧ Path.get p x = some y ∧ y ≠ u.zero ∧ good p

variable {t : GoType}

theorem holds_set {x : Value} (hx : t.Holds x) (size j : Nat) :
    ∀ y ∈ (replicate size t.zero).set j x, t.Holds y := by
  intro y hy
  rcases mem_or_eq_of_mem_set hy with hy | rfl
  · exact eq_of_mem_replicate hy ▸ holds_zero t
  · exact hx

theorem get_set {size j : Nat} (hj : j < size) (x : Value) (p : List Step) :
    get (.idx j :: p) (.list ((replicate size t.zero).set j x)) = get p x := by
  have hchild : Path.Node.child (Step.idx j)
      (Value.list ((replicate size t.zero).set j x)) = some x :=
    getElem?_set_self (by simpa using hj)
  rw [get_cons, hchild, bind_some]

variable {good good' : List Step → Prop}

theorem Shows.element {u : GoType} (h : t.Shows good) {size j : Nat} (hj : j < size)
    (hgood : ∀ p, good p → good' (.idx j :: p)) (hu : u = .slice t ∧ size = 2 ∨ u = .array size t) :
    u.Shows good' := by
  obtain ⟨x, p, v, y, hx, hv, hy, hne, hp⟩ := h
  have hget := (get_set (t := t) hj x p).trans hy
  rcases hu with ⟨rfl, rfl⟩ | rfl
  all_goals
    refine ⟨.list ((replicate _ t.zero).set j x), .idx j :: p, v, y, ?_, hv, hget, hne, hgood p hp⟩
    rw [Holds]
    exact ⟨_, rfl, by simp, holds_set hx _ j⟩

theorem Shows.field {ts : List GoType} {k : Nat}
    (hk : ts[k]? = some t) (h : t.Shows good) (hgood : ∀ p, good p → good' (.field k :: p)) :
    (struct ts).Shows good' := by
  obtain ⟨x, p, u, y, hx, hu, hy, hne, hp⟩ := h
  have hall : ∀ (ts : List GoType) k, ts[k]? = some t → HoldsAll ts ((zeros ts).set k x) := by
    intro ts
    induction ts with
    | nil => intro k hk; cases hk
    | cons s ts ih =>
      intro k hk
      rw [HoldsAll, zeros]
      cases k with
      | zero =>
        obtain rfl : s = t := some.inj hk
        exact ⟨x, zeros ts, rfl, hx, holdsAll_zeros ts⟩
      | succ k => exact ⟨s.zero, (zeros ts).set k x, rfl, holds_zero s, ih k hk⟩
  refine ⟨.struct ((zeros ts).set k x), .field k :: p, u, y, ?_, ?_, ?_, hne, hgood p hp⟩
  · rw [Holds]
    exact ⟨_, rfl, hall ts k hk⟩
  · rw [part, child, hk]
    exact hu
  · have hlen : k < (zeros ts).length := by
      have hzero : (zeros ts)[k]? = some t.zero := by rw [getElem?_zeros, hk]; rfl
      exact (List.getElem?_eq_some_iff.1 hzero).1
    have hchild : Path.Node.child (Step.field k) (Value.struct ((zeros ts).set k x)) = some x :=
      getElem?_set_self hlen
    rw [Path.get_cons, hchild, bind_some, hy]

mutual

theorem shows_of_carries (t : GoType) (h : t.carries) : t.Shows fun _ => True := by
  cases t with
  | prim k =>
    obtain ⟨x, hfits, hne⟩ := exists_ne_zero k
    refine ⟨.prim k x, [], _, _, by rw [Holds]; exact ⟨x, rfl, hfits⟩, rfl, rfl, ?_, trivial⟩
    rw [zero]
    intro heq
    cases heq
    exact hne rfl
  | slice t =>
    refine ⟨.list [t.zero], [], _, _, ?_, rfl, rfl, ?_, trivial⟩
    · rw [Holds]
      exact ⟨_, rfl, by simp, fun x hx => mem_singleton.1 hx ▸ holds_zero t⟩
    · rw [zero]
      intro heq
      cases heq
  | array size t =>
    rw [carries, Bool.and_eq_true, bne_iff_ne] at h
    exact (shows_of_carries t h.2).element (Nat.pos_of_ne_zero h.1) (fun _ _ => trivial) (.inr rfl)
  | struct ts =>
    rw [carries] at h
    obtain ⟨k, t, hk, ht⟩ := shows_of_carriesAny ts h
    exact Shows.field hk ht fun _ _ => trivial

theorem shows_of_carriesAny (ts : List GoType) (h : carriesAny ts) :
    ∃ (k : Nat) (t : GoType), ts[k]? = some t ∧ t.Shows fun _ => True := by
  cases ts with
  | nil => rw [carriesAny] at h; cases h
  | cons t ts =>
    rw [carriesAny, Bool.or_eq_true] at h
    rcases h with h | h
    · exact ⟨0, t, rfl, shows_of_carries t h⟩
    · obtain ⟨k, u, hk, hu⟩ := shows_of_carriesAny ts h
      exact ⟨k + 1, u, hk, hu⟩

end

/-- The paths that are off the diagonal once the loops around them are counted in. -/
def Astray : Nest → List Step → Prop
  | .outside, p => OffDiagonal p
  | .units, p => .idx 1 ∈ p
  | .one, p => .idx 0 ∈ p

theorem Astray.field {n : Nest} {p : List Step} (h : Astray n p) (k : Nat) :
    Astray n (.field k :: p) := by
  cases n with
  | outside =>
    obtain ⟨a, b, ha, hb, hne⟩ := h
    exact ⟨a, b, mem_cons_of_mem _ ha, mem_cons_of_mem _ hb, hne⟩
  | _ => exact mem_cons_of_mem _ h

theorem astray_of_enter {n n' : Nest} {size : Option Nat} (hn : n.enter size = some n')
    (hsize : size ≠ some 0) :
    ∃ j < 2, (∀ k, size = some k → j < k) ∧ ∀ p, Astray n' p → Astray n (.idx j :: p) := by
  rcases Nest.enter_eq_some hn with ⟨rfl, rfl, rfl⟩ | ⟨rfl, rfl⟩ | ⟨rfl, rfl, rfl⟩
  · refine ⟨0, by omega, fun k hk => by cases hk; omega, fun p hp => ?_⟩
    exact ⟨0, 1, mem_cons_self, mem_cons_of_mem _ hp, by omega⟩
  · refine ⟨1, by omega, fun k hk => ?_, fun p hp => ?_⟩
    · subst hk
      have hone : k ≠ 1 := by
        rintro rfl
        cases hn
      have hzero : k ≠ 0 := fun hz => hsize (congrArg some hz)
      omega
    · exact ⟨1, 0, mem_cons_self, mem_cons_of_mem _ hp, by omega⟩
  · exact ⟨0, by omega, fun k hk => by cases hk; omega, fun p hp => mem_cons_of_mem _ hp⟩

theorem astray_of_enter_none {n : Nest} {size : Option Nat} (hn : n.enter size = none)
    (hsize : size ≠ some 0) :
    ∃ j < 2, (∀ k, size = some k → j < k) ∧ ∀ p, Astray n (.idx j :: p) := by
  cases n with
  | outside =>
    rw [Nest.enter.eq_def] at hn
    split at hn <;> simp_all
  | units =>
    refine ⟨1, by omega, fun k hk => ?_, fun p => mem_cons_self⟩
    subst hk
    have hone : k ≠ 1 := by
      rintro rfl
      cases hn
    have hzero : k ≠ 0 := fun hz => hsize (congrArg some hz)
    omega
  | one =>
    refine ⟨0, by omega, fun k hk => ?_, fun p => mem_cons_self⟩
    exact Nat.pos_of_ne_zero fun hz => hsize (hk.trans (congrArg some hz))

mutual

theorem shows_of_not_indexable (t : GoType) {n : Nest} (h : ¬ t.indexable n) :
    t.Shows (Astray n) := by
  cases t with
  | prim k => exact absurd (by rw [indexable]) h
  | slice t =>
    rw [indexable] at h
    cases hn : n.enter none with
    | some n' =>
      simp only [hn] at h
      obtain ⟨j, hj, -, hgood⟩ := astray_of_enter hn (by simp)
      exact (shows_of_not_indexable t h).element hj hgood (.inl ⟨rfl, rfl⟩)
    | none =>
      simp only [hn, Bool.not_eq_true', Bool.not_eq_false] at h
      obtain ⟨j, hj, -, hgood⟩ := astray_of_enter_none hn (by simp)
      exact (shows_of_carries t h).element hj (fun p _ => hgood p) (.inl ⟨rfl, rfl⟩)
  | array size t =>
    rw [indexable, Bool.or_eq_true, not_or, beq_iff_eq] at h
    have hsize : some size ≠ some 0 := fun heq => h.1 (Option.some.inj heq)
    cases hn : n.enter (some size) with
    | some n' =>
      simp only [hn] at h
      obtain ⟨j, -, hj, hgood⟩ := astray_of_enter hn hsize
      exact (shows_of_not_indexable t h.2).element (hj size rfl) hgood (.inr rfl)
    | none =>
      simp only [hn, Bool.not_eq_true', Bool.not_eq_false] at h
      obtain ⟨j, -, hj, hgood⟩ := astray_of_enter_none hn hsize
      exact (shows_of_carries t h.2).element (hj size rfl) (fun p _ => hgood p) (.inr rfl)
  | struct ts =>
    rw [indexable] at h
    obtain ⟨k, t, hk, ht⟩ := shows_of_not_indexableAll ts h
    exact Shows.field hk ht fun p hp => hp.field k

theorem shows_of_not_indexableAll (ts : List GoType) {n : Nest} (h : ¬ indexableAll n ts) :
    ∃ (k : Nat) (t : GoType), ts[k]? = some t ∧ t.Shows (Astray n) := by
  cases ts with
  | nil => exact absurd (by rw [indexableAll]) h
  | cons t ts =>
    rw [indexableAll, Bool.and_eq_true, not_and_or] at h
    rcases h with h | h
    · exact ⟨0, t, rfl, shows_of_not_indexable t h⟩
    · obtain ⟨k, u, hk, hu⟩ := shows_of_not_indexableAll ts h
      exact ⟨k + 1, u, hk, hu⟩

end

theorem blank_of_roundTrip {x y : Value} (h : t.codec.roundTrip t x = .ok y) : Blank t y := by
  rw [Codec.roundTrip] at h
  split at h
  · cases h
  · next data _ =>
    rw [Codec.Unmarshal] at h
    split at h
    · cases h
    · next d _ =>
      cases hexec : t.codec.unmarshal.exec 0 (t.zero, d) with
      | error err =>
        rw [hexec] at h
        cases h
      | ok s =>
        rw [hexec] at h
        obtain rfl : s.1 = y := Except.ok.inj h
        exact blank_exec_dec t (fun _ => rfl) (blank_zero t) hexec

theorem exists_lost (ht : ¬ t.indexable .outside) :
    ∃ x, t.Holds x ∧ t.codec.roundTrip t x ≠ .ok x := by
  obtain ⟨x, p, u, y, hx, hu, hy, hne, hp⟩ := shows_of_not_indexable t ht
  exact ⟨x, hx, fun h => hne (blank_of_roundTrip h p u y hp hu hy)⟩

end GoType

/-- All values of a struct survive the round trip through its generated codec exactly if its type is
indexable. -/
theorem codec_round_trip_iff (m : Module) (depth : Nat) (s : Struct) (c : Codec)
    (h : emitCodec m depth s = some c) (hok : c.ok = true) : ∃ t, structType m depth s = some t ∧
      ((∀ v, t.Holds v → c.roundTrip t v = .ok v) ↔ t.indexable .outside = true) := by
  obtain ⟨ts, hts, rfl⟩ := emitCodec_eq h hok
  refine ⟨.struct ts, hts, fun hall => ?_, fun ht v hv => roundTrip_of_indexable ht hv⟩
  by_contra ht
  obtain ⟨v, hv, hlost⟩ := exists_lost ht
  exact hlost (hall v hv)

/-- A module with an enum, an alias of a byte sequence and two structs:

`module geometry { enum Color { RED, GREEN }; typedef sequence<octet> Blob;`
`struct Point { double x; double y; };`
`struct Shape { @key string name; geometry::Color color; Blob image; sequence<Point> outline;`
`long size[3]; }; };` -/
def geometry : Module :=
  .mk [] [] [] []
    [.mk (str "geometry") [⟨str "Blob", .sequence (.prim .octet)⟩]
      [⟨str "Color", [str "RED", str "GREEN"]⟩]
      [⟨str "Point", [⟨str "x", .prim .double, false⟩, ⟨str "y", .prim .double, false⟩]⟩,
        ⟨str "Shape",
          [⟨str "name", .prim .string, true⟩,
            ⟨str "color", .struct [str "geometry", str "Color"], false⟩,
            ⟨str "image", .struct [str "Blob"], false⟩,
            ⟨str "outline", .sequence (.struct [str "Point"]), false⟩,
            ⟨str "size", .array (.prim .long) 3, false⟩]⟩] []]

theorem codec_round_trip_shape :
    ∃ s c t, searchStruct geometry [str "geometry", str "Shape"] = some s ∧
      emitCodec geometry 3 s = some c ∧ structType geometry 3 s = some t ∧
      ∀ v, t.Holds v → c.roundTrip t v = .ok v := by
  have hstruct : (searchStruct geometry [str "geometry", str "Shape"]).isSome := rfl
  obtain ⟨s, hs⟩ := isSome_iff_exists.1 hstruct
  obtain ⟨t, ht, hiff⟩ := codec_round_trip_iff geometry 3 s _ (by cases hs; rfl) rfl
  exact ⟨s, _, t, hs, (by cases hs; rfl), ht, hiff.2 (by cases hs; cases ht; rfl)⟩

/-- `struct Matrix { sequence<sequence<long>> rows; };` -/
def matrix : Struct :=
  ⟨str "Matrix", [⟨str "rows", .sequence (.sequence (.prim .long)), false⟩]⟩

def matrixOf (rows : List (List Int32)) : Value :=
  .struct [.list (rows.map fun row => .list (row.map fun x : Int32 => .prim .int32 x))]

theorem holds_matrixOf {rows : List (List Int32)} (hlen : rows.length < 2 ^ 32 - 1)
    (hrows : ∀ row ∈ rows, row.length < 2 ^ 32 - 1) :
    (struct [.slice (.slice (.prim .int32))]).Holds (matrixOf rows) := by
  simp only [GoType.Holds, GoType.HoldsAll]
  refine ⟨_, rfl, _, _, rfl, ⟨_, rfl, (length_map _).trans_lt hlen, ?_⟩, rfl⟩
  intro x hx
  obtain ⟨row, hrow, rfl⟩ := mem_map.1 hx
  refine ⟨_, rfl, (length_map _).trans_lt (hrows row hrow), ?_⟩
  intro y hy
  obtain ⟨z, -, rfl⟩ := mem_map.1 hy
  exact ⟨z, rfl, trivial⟩

/-- Two rows of one element each come back as one row with the second element and one with zero. -/
theorem matrix_rows_mixed_up :
    ∃ c t, emitCodec (.mk [] [] [] [matrix] []) 3 matrix = some c ∧ c.ok = true ∧
      structType (.mk [] [] [] [matrix] []) 3 matrix = some t ∧ t.Holds (matrixOf [[1], [2]]) ∧
      c.roundTrip t (matrixOf [[1], [2]]) = .ok (matrixOf [[2], [0]]) ∧
      matrixOf [[1], [2]] ≠ matrixOf [[2], [0]] := by
  refine ⟨_, _, rfl, rfl, rfl, holds_matrixOf (by decide) (by decide), rfl, fun heq => ?_⟩
  simp only [matrixOf, map_cons, map_nil, Value.struct.injEq, Value.list.injEq,
    List.cons.injEq, and_true] at heq
  have hcorner : some (1 : Int32) = some 2 := congrArg (Value.as .int32) heq.1
  exact absurd hcorner (by decide)

end GoDDS.Tools.Idl
