import GoDDS.Tools.Idl.Exec

/-!
# The generated code, by type

Once the names are looked up, the statements generated for a reference depend on its type alone:
`GoType.code` writes them down by recursion on the type.
-/

namespace GoDDS.Tools.Idl

open Cdr Option

namespace GoType

variable {α : Type} (em : Emitter α)

mutual

def code : GoType → Ref → α
  | prim k, ref => em.basic k ref
  | slice t, ref => em.sequence ref (some t) (t.code (em.elemRef ref))
  | array size t, ref => em.array size ref (t.code ref.index)
  | struct ts, ref => em.block (codes ts ref 0)

def codes : List GoType → Ref → Nat → List α
  | [], _, _ => []
  | t :: ts, ref, k => t.code (ref.field k) :: codes ts ref (k + 1)

end

abbrev enc : GoType → Ref → Enc := code encoder

abbrev dec : GoType → Ref → Dec := code decoder

end GoType

/-! ## What the generator accepts -/

section Accepted

variable {α : Type} {em : Emitter α} {ok : α → Bool}

structure Emitter.Strict (em : Emitter α) (ok : α → Bool) : Prop where
  sequence : ∀ {ref t body}, ok (em.sequence ref t body) → ok body
  array : ∀ {size ref body}, ok (em.array size ref body) → ok body
  block : ∀ {parts}, ok (em.block parts) → parts.all ok
  failed : ∀ {f}, ¬ ok (em.failed f)

theorem Enc.ok_block (parts : List Enc) : (Enc.block parts).ok = parts.all Enc.ok := by
  induction parts with
  | nil => rfl
  | cons c parts ih =>
    rw [List.all_cons, ← ih]
    rfl

theorem Dec.ok_block (parts : List Dec) : (Dec.block parts).ok = parts.all Dec.ok := by
  induction parts with
  | nil => rfl
  | cons c parts ih =>
    rw [List.all_cons, ← ih]
    rfl

theorem strict_encoder : encoder.Strict Enc.ok where
  sequence h := by simpa [encoder, Enc.ok] using h
  array h := h
  block h := (Enc.ok_block _).symm.trans h
  failed h := by cases h

theorem strict_decoder : decoder.Strict Dec.ok where
  sequence h := by simpa [decoder, Dec.ok] using h
  array h := h
  block h := (Dec.ok_block _).symm.trans h
  failed h := by cases h

theorem eachField_cons_eq_some {gen : TypeSpec → Ref → Option α} {ref : Ref} {k : Nat} {f : Field}
    {fs : List Field} {parts : List α} (h : eachField gen ref k (f :: fs) = some parts) :
    ∃ c cs, gen f.type (ref.field k) = some c ∧ eachField gen ref (k + 1) fs = some cs ∧
      parts = c :: cs := by
  rw [eachField] at h
  split at h
  · next c cs hc hcs => exact ⟨c, cs, hc, hcs, (some.inj h).symm⟩
  · cases h

open GoType

theorem eachField_typed {gen : TypeSpec → Ref → Option α} {types : TypeSpec → Option GoType}
    (hgen : ∀ ts ref c, gen ts ref = some c → ok c → ∃ t, types ts = some t ∧ c = t.code em ref)
    {ref : Ref} {k : Nat} (l : Nat) {fs : List Field} {parts : List α}
    (h : eachField gen ref k fs = some parts) (hok : parts.all ok) :
    ∃ ts, eachField (fun spec _ => types spec) Ref.v l fs = some ts ∧
      parts = codes em ts ref k := by
  induction fs generalizing k l parts with
  | nil => exact ⟨[], rfl, by rw [codes]; exact (some.inj h).symm⟩
  | cons f fs ih =>
    obtain ⟨c, cs, hc, hcs, rfl⟩ := eachField_cons_eq_some h
    rw [List.all_cons, Bool.and_eq_true] at hok
    obtain ⟨t, ht, rfl⟩ := hgen _ _ _ hc hok.1
    obtain ⟨ts, hts, rfl⟩ := ih (l + 1) hcs hok.2
    refine ⟨t :: ts, ?_, by rw [codes]⟩
    simp only [eachField, ht, hts]

theorem genExpr_typed (hstrict : em.Strict ok) {m : Module} {depth : Nat} {visited : List RefName}
    {ts : TypeSpec} {ref : Ref} {c : α} (h : genExpr em m depth visited ts ref = some c)
    (hok : ok c) : ∃ t, goType m depth ts = some t ∧ c = t.code em ref := by
  -- the recursion of `goType` is that of the generator, without the set of visited structs
  induction depth generalizing visited ts ref c with
  | zero => cases h
  | succ depth ih =>
    rw [genExpr] at h
    rw [goType]
    cases hts : resolveTypedef m ts with
    | sequence elem =>
      simp only [hts] at h ⊢
      by_cases hoctet : elem = .prim .octet
      · rw [if_pos hoctet] at h ⊢
        exact ⟨_, rfl, by rw [code]; exact (some.inj h).symm⟩
      · rw [if_neg hoctet] at h ⊢
        obtain ⟨body, hbody, rfl⟩ := map_eq_some_iff.1 h
        obtain ⟨t, ht, rfl⟩ := ih hbody (hstrict.sequence hok)
        exact ⟨.slice t, by rw [ht]; rfl, by rw [code, ht]⟩
    | array elem size =>
      simp only [hts] at h ⊢
      obtain ⟨body, hbody, rfl⟩ := map_eq_some_iff.1 h
      obtain ⟨t, ht, rfl⟩ := ih hbody (hstrict.array hok)
      exact ⟨.array size t, by rw [ht]; rfl, by rw [code]⟩
    | struct name =>
      simp only [hts] at h ⊢
      cases henum : searchEnum m name with
      | some en =>
        simp only [henum] at h ⊢
        exact ⟨_, rfl, by rw [code]; exact (some.inj h).symm⟩
      | none =>
        cases hstruct : searchStruct m name with
        | none =>
          simp only [henum, hstruct] at h
          obtain rfl := some.inj h
          exact absurd hok hstrict.failed
        | some s =>
          simp only [henum, hstruct] at h ⊢
          by_cases hvisited : name ∈ visited
          · rw [if_pos hvisited] at h
            obtain rfl := some.inj h
            exact absurd hok hstrict.failed
          · rw [if_neg hvisited] at h
            obtain ⟨parts, hparts, rfl⟩ := map_eq_some_iff.1 h
            obtain ⟨tys, htys, rfl⟩ := eachField_typed (fun _ _ _ hc hcok => ih hc hcok) 0 hparts
              (hstrict.block hok)
            exact ⟨.struct tys, by rw [htys]; rfl, by rw [code]⟩
    | _ =>
      simp only [hts] at h ⊢
      exact ⟨_, rfl, by rw [code]; exact (some.inj h).symm⟩

end Accepted

/-- A codec that is not refused consists of the statements for the type of its struct. -/
theorem emitCodec_eq {m : Module} {depth : Nat} {s : Struct} {c : Codec}
    (h : emitCodec m depth s = some c) (hok : c.ok) :
    ∃ ts, structType m depth s = some (.struct ts) ∧
      c = ⟨GoType.enc (.struct ts) .v, GoType.dec (.struct ts) .v⟩ := by
  rw [emitCodec] at h
  split at h
  · next enc dec henc hdec =>
    obtain rfl := some.inj h
    rw [Codec.ok, Bool.and_eq_true] at hok
    obtain ⟨ts, hts, rfl⟩ := eachField_typed
      (fun _ _ _ hc hcok => genExpr_typed strict_encoder hc hcok) 0 henc
      (strict_encoder.block hok.1)
    obtain ⟨ts', hts', rfl⟩ := eachField_typed
      (fun _ _ _ hc hcok => genExpr_typed strict_decoder hc hcok) 0 hdec
      (strict_decoder.block hok.2)
    obtain rfl : ts = ts' := Option.some.inj (hts.symm.trans hts')
    exact ⟨ts, by rw [structType, hts]; rfl, by simp only [GoType.code]; rfl⟩
  · cases h

end GoDDS.Tools.Idl
