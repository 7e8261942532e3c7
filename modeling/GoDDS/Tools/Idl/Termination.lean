import GoDDS.Tools.Idl.Emit
import GoDDS.Tools.Idl.WholeInput
import Mathlib.Data.Fintype.Order

/-!
# The end of the generator

The generator expands a struct only if it is not being expanded already. It has no such guard for
aliases: the alias of a sequence at the bottom of which it stands itself is unfolded forever.
-/

namespace GoDDS.Tools.Idl

open Go Fuel Relation List Outcome Outcome.Halts TransGen Outcome.Le
open Outcome (exhausted_bind halts_ok)

/-! ## Aliases of containers -/

def TypeSpec.elem? : TypeSpec → Option TypeSpec
  | .sequence elem => some elem
  | .array elem _ => some elem
  | _ => none

def TypeSpec.inner : TypeSpec → Option RefName
  | .sequence elem => elem.inner
  | .array elem _ => elem.inner
  | .struct name => some name
  | _ => none

variable {ts : TypeSpec}

theorem TypeSpec.inner_of_elem? {elem : TypeSpec} (h : ts.elem? = some elem) :
    elem.inner = ts.inner := by
  cases ts <;> simp_all [elem?, inner]

/-- `a` is the alias of a sequence or an array at the bottom of which `b` stands. -/
def AliasOf (m : Module) (a b : RefName) : Prop :=
  ∃ td elem, searchTypedef m (bareRefName a) = some td ∧ td.type.elem? = some elem ∧
    elem.inner = some b

theorem AliasOf.unique {m : Module} {a b c : RefName} (hb : AliasOf m a b) (hc : AliasOf m a c) :
    b = c := by
  obtain ⟨td, elem, htd, helem, hinner⟩ := hb
  obtain ⟨td', elem', htd', helem', hinner'⟩ := hc
  simp_all

theorem AliasOf.loop {m : Module} {a b : RefName} (hab : AliasOf m a b)
    (ha : TransGen (AliasOf m) a a) : TransGen (AliasOf m) b b := by
  obtain ⟨c, hac, hca⟩ := head'_iff.1 ha
  rw [← hab.unique hac] at hca
  exact .tail' hca hab

open TypeSpec

theorem inner_of_resolveTypedef {m : Module} {elem : TypeSpec} {b : RefName}
    (h : (resolveTypedef m ts).elem? = some elem) (hb : elem.inner = some b) :
    ts.elem? = some elem ∨ ∃ a, ts = .struct a ∧ AliasOf m a b := by
  cases ts with
  | struct a =>
    right
    rw [resolveTypedef] at h
    cases htd : searchTypedef m (bareRefName a) with
    | none => simp [htd, elem?] at h
    | some td => exact ⟨a, rfl, td, elem, htd, by simpa [htd] using h, hb⟩
  | sequence e => exact .inl h
  | array e size => exact .inl h
  | _ => simp [resolveTypedef, elem?] at h

theorem wellFounded_of_finite {α : Type*} {r : α → α → Prop} {S : Set α} (hS : S.Finite)
    (hr : ∀ a b, r a b → b ∈ S) (hloop : ∀ a, ¬ TransGen r a a) : WellFounded fun b a => r a b := by
  have hfin : Finite S := hS
  let below (x y : S) : Prop := TransGen r y x
  have htrans : IsTrans S below := ⟨fun _ _ _ hxy hyz => hyz.trans hxy⟩
  have hirrefl : Std.Irrefl below := ⟨fun x => hloop x⟩
  have hwf : WellFounded below := Finite.wellFounded_of_trans_of_irrefl below
  have hacc (x : S) : Acc (fun b a => r a b) x.1 := by
    induction x using hwf.induction with
    | h x ih => exact ⟨_, fun c hc => ih ⟨c, hr _ _ hc⟩ (.single hc)⟩
  exact ⟨fun a => ⟨_, fun b hb => hacc ⟨b, hr _ _ hb⟩⟩⟩

/-! ## The names of a module -/

def Declaration.types : Declaration → List TypeSpec
  | .typedef td => [td.type]
  | .enum _ => []
  | .struct s => s.fields.map Field.type

def Module.refNames (m : Module) : List RefName :=
  (m.declarations.flatMap Declaration.types).filterMap TypeSpec.inner

section

variable {α : Type} {decls : Module → List α} {declName : α → Str} {tag : α → Declaration}

mutual

theorem search_mem (htag : ∀ m, ∀ d ∈ decls m, tag d ∈ m.declarations) :
    ∀ (m : Module) (ref : RefName) (d : α),
      search decls declName m ref = some d → tag d ∈ m.declarations
  | .mk nm tds es ss ms, modName :: part :: rest, d, h => by
    rw [search] at h
    rw [Module.declarations]
    exact mem_append_right _ (searchNamed_mem htag ms _ _ _ h)
  | .mk nm tds es ss ms, [], d, h => searchSimple_mem htag ms (by simp) h
  | .mk nm tds es ss ms, [part], d, h => searchSimple_mem htag ms (by simp) h

theorem searchSimple_mem (htag : ∀ m, ∀ d ∈ decls m, tag d ∈ m.declarations) {nm : Str}
    {tds : List Typedef} {es : List Enum} {ss : List Struct} (ms : List Module) {ref : RefName}
    (href : ∀ modName part rest, ref ≠ modName :: part :: rest) {d : α}
    (h : search decls declName (.mk nm tds es ss ms) ref = some d) :
    tag d ∈ (Module.mk nm tds es ss ms).declarations := by
  rw [search.eq_2 _ _ _ _ _ _ _ _ href] at h
  split at h
  · next d' hfind =>
    cases h
    exact htag _ _ (mem_of_find?_eq_some hfind)
  · rw [Module.declarations]
    exact mem_append_right _ (searchEach_mem htag ms _ _ h)

theorem searchNamed_mem (htag : ∀ m, ∀ d ∈ decls m, tag d ∈ m.declarations) :
    ∀ (ms : List Module) (modName : Str) (ref : RefName) (d : α),
      searchNamed decls declName ms modName ref = some d → tag d ∈ declarationsEach ms
  | [], _, _, _, h => by simp [searchNamed] at h
  | sub :: subs, modName, ref, d, h => by
    rw [searchNamed] at h
    rw [declarationsEach]
    split_ifs at h
    · exact mem_append_left _ (search_mem htag sub _ _ h)
    · exact mem_append_right _ (searchNamed_mem htag subs _ _ _ h)

theorem searchEach_mem (htag : ∀ m, ∀ d ∈ decls m, tag d ∈ m.declarations) :
    ∀ (ms : List Module) (ref : RefName) (d : α),
      searchEach decls declName ms ref = some d → tag d ∈ declarationsEach ms
  | [], _, _, h => by simp [searchEach] at h
  | sub :: subs, ref, d, h => by
    rw [searchEach] at h
    rw [declarationsEach]
    split at h
    · next d' hd' =>
      cases h
      exact mem_append_left _ (search_mem htag sub _ _ hd')
    · exact mem_append_right _ (searchEach_mem htag subs _ _ h)

end

end

theorem searchTypedef_mem {m : Module} {ref : RefName} {td : Typedef}
    (h : searchTypedef m ref = some td) : .typedef td ∈ m.declarations := by
  refine search_mem (fun m d hd => ?_) m ref td h
  cases m
  simp [Module.declarations, Module.typedefs] at hd ⊢
  exact .inl hd

theorem searchStruct_mem {m : Module} {ref : RefName} {s : Struct}
    (h : searchStruct m ref = some s) : .struct s ∈ m.declarations := by
  refine search_mem (fun m d hd => ?_) m ref s h
  cases m
  simp [Module.declarations, Module.structs] at hd ⊢
  exact .inl hd

theorem mem_refNames {m : Module} {d : Declaration} {name : RefName} (hd : d ∈ m.declarations)
    (hts : ts ∈ d.types) (hname : ts.inner = some name) : name ∈ m.refNames :=
  mem_filterMap.2 ⟨ts, mem_flatMap.2 ⟨d, hd, hts⟩, hname⟩

theorem AliasOf.mem_refNames {m : Module} {a b : RefName} (h : AliasOf m a b) : b ∈ m.refNames := by
  obtain ⟨td, elem, htd, helem, hinner⟩ := h
  have hts : td.type.inner = some b := (inner_of_elem? helem).symm.trans hinner
  exact Idl.mem_refNames (searchTypedef_mem htd) (by simp [Declaration.types]) hts

theorem resolveTypedef_mem_refNames {m : Module} (h : ∀ name ∈ ts.inner, name ∈ m.refNames) :
    ∀ name ∈ (resolveTypedef m ts).inner, name ∈ m.refNames := by
  cases ts with
  | struct a =>
    rw [resolveTypedef]
    cases htd : searchTypedef m (bareRefName a) with
    | none => exact h
    | some td =>
      intro name hname
      exact mem_refNames (searchTypedef_mem htd) (by simp [Declaration.types]) hname
  | _ => exact h

/-- No alias leads back to itself through sequences and arrays. -/
def NoAliasLoop (m : Module) : Prop := ∀ name, ¬ TransGen (AliasOf m) name name

/-- **Induction over types.** Without a circle of aliases, a property that passes from the element
of what a type stands for to the type holds of all types. -/
theorem elem_induction {m : Module} (hm : NoAliasLoop m) {P : TypeSpec → Prop}
    (step : ∀ ts, (∀ elem, (resolveTypedef m ts).elem? = some elem → P elem) → P ts)
    (ts : TypeSpec) : P ts := by
  have hwf : WellFounded fun b a => AliasOf m a b :=
    wellFounded_of_finite (finite_toSet m.refNames) (fun _ _ h => h.mem_refNames) hm
  have hnone (ts : TypeSpec) (h : ts.inner = none) : P ts := by
    induction ts with
    | struct name => simp [TypeSpec.inner] at h
    | sequence elem ih =>
      exact step _ fun e he => by cases he; exact ih h
    | array elem size ih =>
      exact step _ fun e he => by cases he; exact ih h
    | prim p => exact step _ fun e he => by simp [resolveTypedef, elem?] at he
    | enum name => exact step _ fun e he => by simp [resolveTypedef, elem?] at he
  -- outside, the alias at the bottom; inside, the sequences and arrays above it
  have hsome (a : RefName) : ∀ ts : TypeSpec, ts.inner = some a → P ts := by
    induction a using hwf.induction with
    | h a iha =>
      intro ts h
      induction ts with
      | prim p => simp [TypeSpec.inner] at h
      | enum name => simp [TypeSpec.inner] at h
      | sequence elem ih =>
        exact step _ fun e he => by cases he; exact ih h
      | array elem size ih =>
        exact step _ fun e he => by cases he; exact ih h
      | struct name =>
        refine step _ fun e he => ?_
        cases hb : e.inner with
        | none => exact hnone e hb
        | some b =>
          rcases inner_of_resolveTypedef he hb with hcon | ⟨a', ha', hab⟩
          · simp [elem?] at hcon
          · cases h
            cases ha'
            exact iha b hab e hb
  cases h : ts.inner with
  | none => exact hnone ts h
  | some a => exact hsome a ts h

/-! ## The depth -/

namespace Emit

section

variable (cs : Casing) (m : Module)

theorem goType_of_elem {elem : TypeSpec} (h : (resolveTypedef m ts).elem? = some elem) :
    ∃ wrap : Str → Str, ∀ depth, goType cs m (depth + 1) ts =
      goType cs m depth elem >>= fun type => .ok (wrap type) := by
  cases hts : resolveTypedef m ts with
  | sequence e =>
    cases hts ▸ h
    exact ⟨(str "[]" ++ ·), fun depth => by simp only [goType, hts]⟩
  | array e size =>
    cases hts ▸ h
    exact ⟨(str "[" ++ str (toString size) ++ str "]" ++ ·), fun depth => by
      simp only [goType, hts]⟩
  | _ => simp [hts, elem?] at h

theorem goType_of_none (h : (resolveTypedef m ts).elem? = none) :
    ∃ type, ∀ depth, goType cs m (depth + 1) ts = .ok type := by
  cases hts : resolveTypedef m ts with
  | prim p => exact ⟨p.goType, fun depth => by simp only [goType, hts]⟩
  | struct name => exact ⟨refGoName cs name, fun depth => by simp only [goType, hts]⟩
  | enum name => exact ⟨refGoName cs name, fun depth => by simp only [goType, hts]⟩
  | _ => simp [hts, elem?] at h

theorem steady_goType (ts : TypeSpec) : Outcome.Steady fun depth => goType cs m depth ts := by
  intro depth
  induction depth generalizing ts with
  | zero => exact .exhausted _
  | succ depth ih =>
    dsimp only at ih ⊢
    cases h : (resolveTypedef m ts).elem? with
    | none =>
      obtain ⟨type, htype⟩ := goType_of_none cs m h
      rw [htype, htype]
      exact .refl _
    | some elem =>
      obtain ⟨wrap, hwrap⟩ := goType_of_elem cs m h
      rw [hwrap, hwrap]
      exact (ih elem).bind fun _ => .refl _

theorem steady_madeType (style : Style) (ts : TypeSpec) :
    Outcome.Steady fun depth => madeType cs m style depth ts := by
  unfold madeType
  split_ifs
  · exact steady_goType cs m ts
  · exact steady_const _

theorem steady_expr (style : Style) (visited : List RefName) (ts : TypeSpec) (ref : Str) :
    Outcome.Steady fun depth => expr cs m style depth visited ts ref := by
  intro depth
  induction depth generalizing visited ts ref with
  | zero => exact .exhausted _
  | succ depth ih =>
    dsimp only at ih ⊢
    rw [expr, expr]
    cases resolveTypedef m ts with
    | prim p => exact .refl _
    | enum name => exact .refl _
    | sequence elem =>
      dsimp only
      split_ifs
      · exact .refl _
      · exact (steady_madeType cs m style _ depth).bind fun _ =>
          (ih visited elem _).bind fun _ => .refl _
    | array elem size => exact (ih visited elem _).bind fun _ => .refl _
    | struct name =>
      dsimp only
      cases searchEnum m name with
      | some e => exact .refl _
      | none =>
        cases searchStruct m name with
        | none => exact .refl _
        | some s =>
          dsimp only
          split_ifs
          · exact .refl _
          · exact (each fun f _ => ih _ _ _).bind fun _ => .refl _

theorem steady_emitField (f : Field) : Outcome.Steady fun depth => emitField cs m depth f :=
  fun depth => (steady_goType cs m f.type depth).bind fun _ => .refl _

theorem steady_emitFields (s : Struct) :
    Outcome.Steady fun depth => each (emitField cs m depth) s.fields := fun depth =>
  .each fun f _ => steady_emitField cs m f depth

theorem steady_emitCodec (s : Struct) : Outcome.Steady fun depth => emitCodec cs m depth s :=
  fun depth =>
    (each fun _ _ => steady_expr cs m encoding _ _ _ depth).bind fun _ =>
      (each fun _ _ => steady_expr cs m decoding _ _ _ depth).bind fun _ => .refl _

theorem steady_emitDeclaration (d : Declaration) :
    Outcome.Steady fun depth => emitDeclaration cs m depth d := by
  intro depth
  cases d with
  | typedef td => exact (steady_goType cs m td.type depth).bind fun _ => .refl _
  | enum e => exact .refl _
  | struct s =>
    exact (steady_emitFields cs m s depth).bind fun _ =>
      (steady_emitCodec cs m s depth).bind fun _ => .refl _

theorem steady_generate : Outcome.Steady (generate cs m) := fun depth =>
  (each fun d _ => steady_emitDeclaration cs m d depth).bind fun _ => .refl _

theorem goType_eq_exhausted {a : RefName} (ha : TransGen (AliasOf m) a a) (hts : ts.inner = some a)
    (depth : Nat) : goType cs m depth ts = .exhausted := by
  induction depth generalizing a ts with
  | zero => rfl
  | succ depth ih =>
    obtain ⟨b, elem, hb, helem, hinner⟩ : ∃ b elem, TransGen (AliasOf m) b b ∧
        (resolveTypedef m ts).elem? = some elem ∧ elem.inner = some b := by
      cases ts with
      | sequence elem => exact ⟨a, elem, ha, rfl, hts⟩
      | array elem size => exact ⟨a, elem, ha, rfl, hts⟩
      | struct name =>
        cases hts
        obtain ⟨b, hab, -⟩ := head'_iff.1 ha
        have hb := hab.loop ha
        obtain ⟨td, elem, htd, helem, hinner⟩ := hab
        exact ⟨b, elem, hb, by simpa only [resolveTypedef, htd] using helem, hinner⟩
      | _ => simp [TypeSpec.inner] at hts
    obtain ⟨wrap, hwrap⟩ := goType_of_elem cs m helem
    rw [hwrap, ih hb hinner, exhausted_bind]

theorem generate_eq_exhausted {a : RefName} (ha : TransGen (AliasOf m) a a) (depth : Nat) :
    generate cs m depth = .exhausted := by
  obtain ⟨b, hab, -⟩ := head'_iff.1 ha
  have hb := hab.loop ha
  obtain ⟨td, elem, htd, helem, hinner⟩ := hab
  have htype : td.type.inner = some b := (inner_of_elem? helem).symm.trans hinner
  have htypedef : emitDeclaration cs m depth (.typedef td) = .exhausted := by
    simp only [emitDeclaration, emitTypedef, goType_eq_exhausted cs m hb htype, exhausted_bind]
  rw [generate, each_eq_exhausted (fun _ e => e.elim) (searchTypedef_mem htd) htypedef,
    exhausted_bind]

/-! ## No circle -/

variable {m} (hm : NoAliasLoop m)

include hm

theorem halts_goType (ts : TypeSpec) : Outcome.Halts fun depth => goType cs m depth ts := by
  induction ts using elem_induction hm with
  | step ts ih =>
    cases h : (resolveTypedef m ts).elem? with
    | none =>
      obtain ⟨type, htype⟩ := goType_of_none cs m h
      exact (halts_ok type).of_succ htype
    | some elem =>
      obtain ⟨wrap, hwrap⟩ := goType_of_elem cs m h
      exact ((ih elem h).map wrap).of_succ hwrap

theorem halts_madeType (style : Style) (ts : TypeSpec) :
    Outcome.Halts fun depth => madeType cs m style depth ts := by
  unfold madeType
  split_ifs
  · exact halts_goType cs hm ts
  · exact halts_ok _

def unvisited (m : Module) (visited : List RefName) : Finset RefName :=
  m.refNames.toFinset \ visited.toFinset

omit hm in
theorem unvisited_cons {visited : List RefName} {name : RefName} (hname : name ∈ m.refNames)
    (h : name ∉ visited) : (unvisited m (name :: visited)).card < (unvisited m visited).card := by
  refine Finset.card_lt_card (Finset.ssubset_iff_of_subset ?_ |>.2 ⟨name, ?_, ?_⟩)
  · intro x
    simp only [unvisited, Finset.mem_sdiff, List.mem_toFinset, mem_cons]
    tauto
  · simp [unvisited, hname, h]
  · simp [unvisited]

theorem halts_expr (style : Style) {k : Nat} : ∀ {visited : List RefName} {ts : TypeSpec},
    (unvisited m visited).card ≤ k → (∀ name ∈ ts.inner, name ∈ m.refNames) →
      ∀ ref, Outcome.Halts fun depth => expr cs m style depth visited ts ref := by
  induction k using Nat.strong_induction_on with
  | h k ihk =>
    intro visited ts hk hts
    induction ts using elem_induction hm with
    | step ts ih =>
      intro ref
      have hres := resolveTypedef_mem_refNames hts
      cases hr : resolveTypedef m ts with
      | array elem size =>
        have helem := ih elem (by rw [hr]; rfl) (by rw [hr] at hres; exact hres)
        exact ((helem _).map _).of_succ fun depth => by simp only [expr, hr]; rfl
      | sequence elem =>
        have helem := ih elem (by rw [hr]; rfl) (by rw [hr] at hres; exact hres)
        by_cases hoctet : elem = .prim .octet
        · exact (halts_ok _).of_succ fun depth => by
            simp only [expr, hr, hoctet, if_true]; rfl
        · refine ((halts_madeType cs hm style (.sequence elem)).map₂ (steady_madeType cs m style _)
            (steady_expr cs m style visited elem _) (helem (style.elemRef ref)) fun type body =>
              (style.sequence ref type body.1, body.2)).of_succ fun depth => ?_
          simp only [expr, hr, hoctet, if_false]
      | struct name =>
        have hname : name ∈ m.refNames := hres name (by rw [hr]; rfl)
        cases henum : searchEnum m name with
        | some e =>
          exact (halts_ok _).of_succ fun depth => by simp only [expr, hr, henum]; rfl
        | none =>
          cases hstruct : searchStruct m name with
          | none =>
            exact (halts_ok _).of_succ fun depth => by
              simp only [expr, hr, henum, hstruct]; rfl
          | some s =>
            by_cases hvisited : name ∈ visited
            · exact (halts_ok _).of_succ fun depth => by
                simp only [expr, hr, henum, hstruct, hvisited, if_true]; rfl
            · have hcard := unvisited_cons hname hvisited
              have hfields : ∀ f ∈ s.fields, Outcome.Halts fun depth =>
                  expr cs m style depth (name :: visited) f.type
                    (ref ++ str "." ++ toGoName cs f.name) := by
                intro f hf
                refine ihk _ (by omega) (Nat.le_refl _) (fun name' hname' => ?_) _
                exact mem_refNames (searchStruct_mem hstruct) (List.mem_map_of_mem hf) hname'
              refine ((each (fun f : Field => steady_expr cs m style _ f.type _)
                hfields).map block).of_succ fun depth => ?_
              simp only [expr, hr, henum, hstruct, hvisited, if_false]
      | _ => exact (halts_ok _).of_succ fun depth => by simp only [expr, hr]; rfl

theorem halts_emitDeclaration {d : Declaration} (hd : d ∈ m.declarations) :
    Outcome.Halts fun depth => emitDeclaration cs m depth d := by
  cases d with
  | typedef td => exact (halts_goType cs hm td.type).map _
  | enum e => exact halts_ok _
  | struct s =>
    have hfield (style : Style) : ∀ f ∈ s.fields, Outcome.Halts fun depth =>
        expr cs m style depth [] f.type (str "v." ++ toGoName cs f.name) := fun f hf =>
      halts_expr cs hm style (Nat.le_refl _)
        (fun name hname => mem_refNames hd (List.mem_map_of_mem hf) hname) _
    have hsteady (style : Style) : Outcome.Steady fun depth => each (fun f : Field =>
        expr cs m style depth [] f.type (str "v." ++ toGoName cs f.name)) s.fields := fun depth =>
      .each fun f _ => steady_expr cs m style [] f.type _ depth
    have hhalts (style : Style) := each
      (fun f : Field => steady_expr cs m style [] f.type (str "v." ++ toGoName cs f.name))
      (hfield style)
    have hcodec : Outcome.Halts fun depth => emitCodec cs m depth s :=
      (hhalts encoding).map₂ (hsteady encoding) (hsteady decoding) (hhalts decoding) _
    have hfields : Outcome.Halts fun depth => each (emitField cs m depth) s.fields :=
      each (steady_emitField cs m) fun f _ => (halts_goType cs hm f.type).map _
    exact hfields.map₂ (steady_emitFields cs m s) (steady_emitCodec cs m s) hcodec _

omit hm in
/-- For every module the generator comes to an end exactly if no alias leads back to itself through
sequences and arrays. -/
theorem generate_halts_iff (cs : Casing) (m : Module) :
    (∃ r depth₀, ∀ depth, depth₀ ≤ depth → generate cs m depth = .ok r) ↔
      ∀ name, ¬ TransGen (AliasOf m) name name := by
  constructor
  · rintro ⟨r, depth₀, h⟩ name hname
    have hr := h depth₀ (Nat.le_refl _)
    rw [generate_eq_exhausted cs m hname] at hr
    cases hr
  · intro hm
    have hparts : Outcome.Halts fun depth =>
        each (emitDeclaration cs m depth) m.declarations :=
      each (steady_emitDeclaration cs m) fun d hd => halts_emitDeclaration cs hm hd
    have hgenerate : Outcome.Halts (generate cs m) := hparts.map _
    obtain ⟨depth₀, hne, hall⟩ := hgenerate.settles (steady_generate cs m)
    cases hr : generate cs m depth₀ with
    | exhausted => exact absurd hr hne
    | error e => exact e.elim
    | ok r => exact ⟨r, depth₀, fun depth hdepth => (hall depth hdepth).trans hr⟩

end

/-- `typedef sequence<A> A;` -/
def sequenceOfItself : Module := .mk [] [⟨str "A", .sequence (.struct [str "A"])⟩] [] [] []

theorem aliasOf_itself : AliasOf sequenceOfItself [str "A"] [str "A"] :=
  ⟨⟨str "A", .sequence (.struct [str "A"])⟩, _, rfl, rfl, rfl⟩

/-- A sequence of itself is accepted by the parser, and no bound on the depth suffices for it. -/
theorem generate_sequence_of_itself :
    ParseString ascii "typedef sequence<A> A;".toList = .ok sequenceOfItself ∧
      ∀ depth, generate .ascii sequenceOfItself depth = .exhausted :=
  ⟨by decide +kernel, generate_eq_exhausted .ascii _ (.single aliasOf_itself)⟩

end Emit

end GoDDS.Tools.Idl
