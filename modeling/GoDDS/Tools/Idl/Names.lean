import GoDDS.Tools.Idl.Emit
import GoDDS.Tools.Idl.WholeInput

/-!
# Generated identifiers

`toGoName` forgets underscores and the case of the letters after them, and all modules end up in one
package.

* the types have pairwise distinct Go names, whatever their modules,
* so have the enum constants, and none of them is called like a type,
* no codec or constructor is called like a type or a constant,
* the fields of each struct have pairwise distinct Go names.
-/

namespace GoDDS.Tools.Idl

open Go Fuel List Outcome GoDecl

namespace Declaration

variable (cs : Casing)

def goName : Declaration → Str
  | typedef td => toGoName cs td.name
  | enum e => toGoName cs e.name
  | struct s => toGoName cs s.name

def constants : Declaration → List Str
  | enum e => e.values.map fun v => toGoName cs e.name ++ toGoName cs v
  | _ => []

def helpers : Declaration → List Str
  | struct s =>
    [toGoName cs s.name ++ str "Codec", str "New" ++ toGoName cs s.name ++ str "Publisher",
      str "New" ++ toGoName cs s.name ++ str "Subscriber"]
  | _ => []

def goFieldNames : Declaration → List Str
  | struct s => s.fields.map fun f => toGoName cs f.name
  | _ => []

end Declaration

/-- The package-level names of a module do not collide, nor do the fields of a struct. -/
structure DistinctNames (cs : Casing) (m : Module) : Prop where
  types : (m.declarations.map (Declaration.goName cs)).Nodup
  constants : (m.declarations.flatMap (Declaration.constants cs)).Nodup
  constants_types : ∀ d ∈ m.declarations, ∀ c ∈ d.constants cs, ∀ d' ∈ m.declarations,
    c ≠ d'.goName cs
  helpers_types : ∀ d ∈ m.declarations, ∀ h ∈ d.helpers cs, ∀ d' ∈ m.declarations,
    h ≠ d'.goName cs
  helpers_constants : ∀ d ∈ m.declarations, ∀ h ∈ d.helpers cs, ∀ d' ∈ m.declarations,
    h ∉ d'.constants cs
  fields : ∀ d ∈ m.declarations, (d.goFieldNames cs).Nodup

theorem append_ne_append {a b s t : Str} (hst : ¬ s <:+ t) (hts : ¬ t <:+ s) : a ++ s ≠ b ++ t := by
  intro h
  have hs : s <:+ b ++ t := h ▸ suffix_append a s
  rcases suffix_or_suffix_of_suffix hs (suffix_append b t) with h' | h'
  · exact hst h'
  · exact hts h'

theorem codec_ne_publisher (a b : Str) :
    a ++ str "Codec" ≠ str "New" ++ (b ++ str "Publisher") := by
  rw [← append_assoc]
  exact append_ne_append (by decide +kernel) (by decide +kernel)

theorem codec_ne_subscriber (a b : Str) :
    a ++ str "Codec" ≠ str "New" ++ (b ++ str "Subscriber") := by
  rw [← append_assoc]
  exact append_ne_append (by decide +kernel) (by decide +kernel)

theorem publisher_ne_subscriber (a b : Str) : a ++ str "Publisher" ≠ b ++ str "Subscriber" :=
  append_ne_append (by decide +kernel) (by decide +kernel)

theorem Declaration.nodup_helpers_self (cs : Casing) (d : Declaration) : (d.helpers cs).Nodup := by
  cases d with
  | struct s =>
    have hend : str "Publisher" ≠ str "Subscriber" := publisher_ne_subscriber [] []
    simp [helpers, codec_ne_publisher, codec_ne_subscriber, hend]
  | typedef td => simp [helpers]
  | enum e => simp [helpers]

variable {cs : Casing} {d : Declaration} {decls : List GoDecl} {r : List GoDecl × List Str}

theorem Declaration.disjoint_helpers {d' : Declaration} (h : d.goName cs ≠ d'.goName cs) :
    (d.helpers cs).Disjoint (d'.helpers cs) := by
  cases d with
  | struct s =>
    cases d' with
    | struct s' =>
      have hne : ¬ toGoName cs s.name = toGoName cs s'.name := h
      simp [List.Disjoint, helpers, hne, codec_ne_publisher, codec_ne_subscriber,
        publisher_ne_subscriber, (codec_ne_publisher _ _).symm, (codec_ne_subscriber _ _).symm,
        (publisher_ne_subscriber _ _).symm]
    | _ => simp [helpers]
  | typedef td => simp [helpers]
  | enum e => simp [helpers]

open Declaration

theorem nodup_helpers {ds : List Declaration} (h : (ds.map (goName cs)).Nodup) :
    (ds.flatMap (helpers cs)).Nodup := by
  rw [nodup_flatMap]
  refine ⟨fun d _ => d.nodup_helpers_self cs, ?_⟩
  exact (pairwise_map.1 h).imp fun hne => disjoint_helpers hne

/-! ## What is generated -/

namespace Emit

variable {cs : Casing} {m : Module} {depth : Nat}

theorem emitEnum_names (e : Enum) : (emitEnum cs e).map name =
      toGoName cs e.name :: e.values.map fun v => toGoName cs e.name ++ toGoName cs v := by
  rw [emitEnum, map_cons]
  congr 1
  exact ext_getElem (by simp) (by simp [name])

theorem emitField_name {f : Field} {t : Str × Str × Str} (h : emitField cs m depth f = .ok t) :
    t.1 = toGoName cs f.name := by
  obtain ⟨type, -, ⟨⟩⟩ := bind_eq_ok.1 h
  rfl

theorem emitStruct_eq {s : Struct} (h : emitStruct cs m depth s = .ok r) :
    ∃ fields marshal unmarshal keyFields, r.1 = .structType (toGoName cs s.name) fields ::
        .codec (codecName cs s) (toGoName cs s.name) marshal unmarshal keyFields ::
          emitFactories cs s ∧
      fields.map (fun f => f.1) = s.fields.map fun f => toGoName cs f.name := by
  obtain ⟨fields, hfields, h⟩ := bind_eq_ok.1 h
  obtain ⟨codec, hcodec, ⟨⟩⟩ := bind_eq_ok.1 h
  obtain ⟨marshal, -, hcodec⟩ := bind_eq_ok.1 hcodec
  obtain ⟨unmarshal, -, ⟨⟩⟩ := bind_eq_ok.1 hcodec
  exact ⟨fields, _, _, _, rfl, map_of_each hfields fun _ _ => emitField_name⟩

theorem emitDeclaration_names (h : emitDeclaration cs m depth d = .ok r) :
    r.1.map name = d.goName cs :: (d.constants cs ++ d.helpers cs) := by
  cases d with
  | typedef td =>
    obtain ⟨type, -, ⟨⟩⟩ := bind_eq_ok.1 h
    rfl
  | enum e =>
    cases h
    simp only [emitEnum_names, goName, constants, helpers, append_nil]
  | struct s =>
    obtain ⟨fields, marshal, unmarshal, keyFields, hr, -⟩ := emitStruct_eq h
    rw [hr]
    rfl

theorem emitDeclaration_fieldNames (h : emitDeclaration cs m depth d = .ok r) :
    (∀ x ∈ r.1, x.fieldNames.Nodup) ↔ (d.goFieldNames cs).Nodup := by
  cases d with
  | typedef td =>
    obtain ⟨type, -, ⟨⟩⟩ := bind_eq_ok.1 h
    simp [fieldNames, goFieldNames]
  | enum e =>
    cases h
    have hnil : ∀ x ∈ emitEnum cs e, x.fieldNames = [] := by
      intro x hx
      rcases mem_cons.1 hx with rfl | hx
      · rfl
      · obtain ⟨i, hi, rfl⟩ := mem_mapIdx.1 hx
        rfl
    simp +contextual [hnil, goFieldNames]
  | struct s =>
    obtain ⟨fields, marshal, unmarshal, keyFields, hr, hfields⟩ := emitStruct_eq h
    simp [hr, emitFactories, fieldNames, goFieldNames, hfields]

theorem generate_eq_ok (h : generate cs m depth = .ok (.ok decls)) :
    ∃ parts, Outcome.each (emitDeclaration cs m depth) m.declarations = .ok parts ∧
      decls = parts.flatMap Prod.fst := by
  obtain ⟨parts, hparts, h⟩ := bind_eq_ok.1 h
  refine ⟨parts, hparts, ?_⟩
  cases hfail : parts.flatMap Prod.snd with
  | nil =>
    simp only [hfail, Outcome.ok.injEq, Except.ok.injEq] at h
    exact h.symm
  | cons msg msgs => simp [hfail] at h

theorem generate_names (h : generate cs m depth = .ok (.ok decls)) : decls.map name =
      m.declarations.flatMap fun d => d.goName cs :: (d.constants cs ++ d.helpers cs) := by
  obtain ⟨parts, hparts, rfl⟩ := generate_eq_ok h
  rw [map_flatMap, flatMap_def, flatMap_def, map_of_each hparts fun _ _ => emitDeclaration_names]

theorem generate_fieldNames (h : generate cs m depth = .ok (.ok decls)) :
    (∀ x ∈ decls, x.fieldNames.Nodup) ↔ ∀ d ∈ m.declarations, (d.goFieldNames cs).Nodup := by
  obtain ⟨parts, hparts, rfl⟩ := generate_eq_ok h
  rw [← forall_of_each hparts fun _ _ => emitDeclaration_fieldNames]
  exact forall_mem_flatMap

end Emit

theorem perm_names (cs : Casing) (ds : List Declaration) :
    (ds.map (goName cs) ++ (ds.flatMap (constants cs) ++ ds.flatMap (helpers cs))).Perm
      (ds.flatMap fun d => d.goName cs :: (d.constants cs ++ d.helpers cs)) :=
  ((flatMap_append_perm ds _ _).append_left _).trans (map_append_flatMap_perm ds _ _)

open Emit

/-- What is generated without an error has pairwise distinct names, in the package and among the
fields of each struct, exactly if -/
theorem generated_names_distinct_iff (cs : Casing) (m : Module) (depth : Nat) (decls : List GoDecl)
    (h : Emit.generate cs m depth = .ok (.ok decls)) :
    ((decls.map GoDecl.name).Nodup ∧ ∀ x ∈ decls, x.fieldNames.Nodup) ↔ DistinctNames cs m := by
  rw [generate_names h, generate_fieldNames h, ← (perm_names cs _).nodup_iff,
    nodup_append, nodup_append]
  constructor
  · rintro ⟨⟨htypes, ⟨hconstants, hhelpers, hch⟩, hrest⟩, hfields⟩
    refine ⟨htypes, hconstants, ?_, ?_, ?_, hfields⟩
    · intro d hd c hc d' hd' heq
      exact hrest _ (List.mem_map_of_mem hd') _
        (mem_append_left _ (mem_flatMap_of_mem hd hc)) heq.symm
    · intro d hd x hx d' hd' heq
      exact hrest _ (List.mem_map_of_mem hd') _
        (mem_append_right _ (mem_flatMap_of_mem hd hx)) heq.symm
    · intro d hd x hx d' hd' hmem
      exact hch _ (mem_flatMap_of_mem hd' hmem) _ (mem_flatMap_of_mem hd hx) rfl
  · intro hm
    refine ⟨⟨hm.types, ⟨hm.constants, nodup_helpers hm.types, ?_⟩, ?_⟩, hm.fields⟩
    · intro c hc x hx heq
      obtain ⟨d, hd, hc⟩ := mem_flatMap.1 hc
      obtain ⟨d', hd', hx⟩ := mem_flatMap.1 hx
      exact hm.helpers_constants d' hd' x hx d hd (heq ▸ hc)
    · intro t ht c hc heq
      obtain ⟨d, hd, rfl⟩ := List.mem_map.1 ht
      rcases mem_append.1 hc with hc | hc
      · obtain ⟨d', hd', hc⟩ := mem_flatMap.1 hc
        exact hm.constants_types d' hd' c hc d hd heq.symm
      · obtain ⟨d', hd', hc⟩ := mem_flatMap.1 hc
        exact hm.helpers_types d' hd' c hc d hd heq.symm

def Emit.generates (cs : Casing) (m : Module) (depth : Nat) : Bool :=
  match generate cs m depth with
  | .ok (.ok _) => true
  | _ => false

theorem Emit.exists_of_generates {m : Module} {depth : Nat} (h : generates cs m depth) :
    ∃ decls, generate cs m depth = .ok (.ok decls) := by
  unfold generates at h
  split at h
  · next decls hdecls => exact ⟨decls, hdecls⟩
  · cases h

def wheelSpeed : Module :=
  .mk [] [] [⟨str "color", [str "red", str "green"]⟩]
    [⟨str "wheel_speed", [⟨str "rpm", .prim .long, false⟩,
      ⟨str "mark", .struct [str "color"], false⟩]⟩] []

theorem generated_names_distinct_wheelSpeed :
    ∃ decls, Emit.generate .ascii wheelSpeed 3 = .ok (.ok decls) ∧
      (decls.map GoDecl.name).Nodup ∧ ∀ x ∈ decls, x.fieldNames.Nodup := by
  obtain ⟨decls, hdecls⟩ := exists_of_generates (show generates .ascii wheelSpeed 3 from by
    decide +kernel)
  refine ⟨decls, hdecls, (generated_names_distinct_iff .ascii wheelSpeed 3 decls hdecls).2 ?_⟩
  exact ⟨by decide +kernel, by decide +kernel, by decide +kernel, by decide +kernel,
    by decide +kernel, by decide +kernel⟩

def twoBars : Module :=
  .mk [] [] [] [⟨str "foo_bar", [⟨str "x", .prim .long, false⟩]⟩,
    ⟨str "FooBar", [⟨str "x", .prim .long, false⟩]⟩] []

/-- Two names, one Go name. -/
theorem struct_names_collide : ParseString ascii
        "struct foo_bar \x7b long x; \x7d; struct FooBar \x7b long x; \x7d;".toList = .ok twoBars ∧
      (twoBars.structs.map Struct.name).Nodup ∧
      ∃ decls, Emit.generate .ascii twoBars 2 = .ok (.ok decls) ∧
        ¬ (decls.map GoDecl.name).Nodup := by
  obtain ⟨decls, hdecls⟩ := exists_of_generates (show generates .ascii twoBars 2 from by
    decide +kernel)
  refine ⟨by decide +kernel, by decide +kernel, decls, hdecls, ?_⟩
  rw [generate_names hdecls]
  decide +kernel

end GoDDS.Tools.Idl
