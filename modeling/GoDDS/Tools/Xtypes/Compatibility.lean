import GoDDS.Tools.Xtypes.Descriptor

/-!
# Compatibility of schemas
-/

namespace GoDDS.Tools.Xtypes

open ByteCodec Go

/-- The texts of `CompatibilityResult.Reason`, with the values in them. -/
inductive Reason where
  | absent (field : Str)
  | kinds (field : Str) (reader writer : TypeKind)

structure CompatibilityResult where
  compatible : Bool
  reason : Option Reason

/-- A field the reader requires has to be declared by the writer, and fields of one name have to be
of one kind. -/
def checkFields (writerFields : Table Str FieldDescriptor) :
    List FieldDescriptor → CompatibilityResult
  | [] => { compatible := true, reason := none }
  | rf :: rfs =>
    match writerFields rf.name with
    | none =>
      if !rf.optional then { compatible := false, reason := some (.absent rf.name) }
      else checkFields writerFields rfs
    | some wf =>
      if wf.kind ≠ rf.kind then
        { compatible := false, reason := some (.kinds rf.name rf.kind wf.kind) }
      else checkFields writerFields rfs

def CheckCompatibility (writerTD readerTD : TypeDescriptor) : CompatibilityResult :=
  checkFields (fieldMap writerTD.fields) readerTD.fields

/-- The value has what a reader with this descriptor counts on. -/
inductive Provides : FieldDescriptor → Value → Prop
  | prim {f : FieldDescriptor} {v : Value} (hkind : v.kind? = some f.kind) (hstruct : f.kind ≠ .struct)
      (hseq : f.kind ≠ .seq) : Provides f v
  | struct {f : FieldDescriptor} {entries : List (Str × Value)} (hkind : f.kind = .struct)
      (required : ∀ g ∈ f.fields, entries.lookup g.name = none → g.optional = true)
      (fields : ∀ g ∈ f.fields, ∀ x, entries.lookup g.name = some x → Provides g x) :
      Provides f (.struct entries)
  | seq {f : FieldDescriptor} {elems : List Value} (hkind : f.kind = .seq)
      (elements : ∀ g ∈ f.element, ∀ x ∈ elems, Provides g x) : Provides f (.seq elems)

/-- The entries have what a reader with these fields counts on. -/
structure RecordProvides (fields : List FieldDescriptor) (entries : List (Str × Value)) : Prop where
  required : ∀ g ∈ fields, entries.lookup g.name = none → g.optional = true
  provides : ∀ g ∈ fields, ∀ x, entries.lookup g.name = some x → Provides g x

variable {f : FieldDescriptor}

theorem provides_struct_iff (hkind : f.kind = .struct) {entries : List (Str × Value)} :
    Provides f (.struct entries) ↔ RecordProvides f.fields entries := by
  constructor
  · intro h
    cases h with
    | prim _ hstruct _ => exact absurd hkind hstruct
    | struct _ hrequired hprovides => exact ⟨hrequired, hprovides⟩
  · intro h
    exact .struct hkind h.required h.provides

theorem provides_seq_iff (hkind : f.kind = .seq) {elems : List Value} :
    Provides f (.seq elems) ↔ ∀ g ∈ f.element, ∀ x ∈ elems, Provides g x := by
  constructor
  · intro h
    cases h with
    | prim _ _ hseq => exact absurd hkind hseq
    | seq _ helements => exact helements
  · exact .seq hkind

theorem Provides.kind_eq {v : Value} (h : Provides f v) : v.kind? = some f.kind := by
  cases h with
  | prim hkind _ _ => exact hkind
  | struct hkind _ _ => rw [hkind]; rfl
  | seq hkind _ => rw [hkind]; rfl

/-! ## Descriptors that suit each other -/

mutual

/-- The two descriptors are of one kind, and their parts suit each other. -/
def suits (wf : FieldDescriptor) : FieldDescriptor → Bool
  | .mk _ kind _ fields element =>
    wf.kind == kind &&
      match kind with
      | .struct => suitsFields wf.fields fields
      | .seq => suitsElement wf.element element
      | _ => true

/-- Every reader's field suits the writer's of its name; what the writer may not have is
optional. -/
def suitsFields (wfs : List FieldDescriptor) : List FieldDescriptor → Bool
  | [] => true
  | rf :: rfs =>
    (match fieldMap wfs rf.name with
      | none => rf.optional
      | some wf => (rf.optional || !wf.optional) && suits wf rf) && suitsFields wfs rfs

/-- If the reader describes the elements, the writer does, and the descriptions suit each other. -/
def suitsElement (wf : Option FieldDescriptor) : Option FieldDescriptor → Bool
  | none => true
  | some rf =>
    match wf with
    | none => false
    | some wf => suits wf rf

end

def SuitsField (wfs : List FieldDescriptor) (rf : FieldDescriptor) : Prop :=
  (fieldMap wfs rf.name = none → rf.optional = true) ∧
    ∀ wf, fieldMap wfs rf.name = some wf →
      (wf.optional = true → rf.optional = true) ∧ suits wf rf = true

theorem suitsFields_iff (wfs rfs : List FieldDescriptor) :
    suitsFields wfs rfs ↔ ∀ rf ∈ rfs, SuitsField wfs rf := by
  induction rfs with
  | nil => simp [suitsFields]
  | cons rf rfs ih =>
    rw [suitsFields, Bool.and_eq_true, ih, List.forall_mem_cons]
    refine and_congr_left fun _ => ?_
    unfold SuitsField
    cases fieldMap wfs rf.name with
    | none => simp
    | some wf => cases rf.optional <;> cases wf.optional <;> simp

theorem suits_iff (wf rf : FieldDescriptor) : suits wf rf ↔ wf.kind = rf.kind ∧
      (rf.kind = .struct → suitsFields wf.fields rf.fields) ∧
      (rf.kind = .seq → ∀ g ∈ rf.element, ∃ w ∈ wf.element, suits w g) := by
  cases rf with
  | mk name kind optional fields element =>
    have helement : suitsElement wf.element element ↔
        ∀ g ∈ element, ∃ w ∈ wf.element, suits w g := by
      cases element with
      | none => simp [suitsElement]
      | some g => cases wf.element <;> simp [suitsElement]
    cases kind <;> simp [suits, helement]

/-! ## Soundness -/

def Sound (wf rf : FieldDescriptor) : Prop := ∀ v, Conforms wf v → Provides rf v

def RecordSound (wfs rfs : List FieldDescriptor) : Prop :=
  ∀ entries, RecordConforms wfs entries → RecordProvides rfs entries

section Record

variable {wfs rfs : List FieldDescriptor}
  (hfields : ∀ rf ∈ rfs, ∀ wf, Sound wf rf ↔ suits wf rf = true)

include hfields

theorem recordSound_of_suits (h : ∀ rf ∈ rfs, SuitsField wfs rf) : RecordSound wfs rfs := by
  intro entries hentries
  refine ⟨fun rf hrf hnone => ?_, fun rf hrf x hx => ?_⟩
  · obtain ⟨habsent, hpresent⟩ := h rf hrf
    cases hwf : fieldMap wfs rf.name with
    | none => exact habsent hwf
    | some wf => exact (hpresent wf hwf).1 (hentries.required rf.name wf hwf hnone)
  · obtain ⟨wf, hwf⟩ := Option.isSome_iff_exists.1 (hentries.declared rf.name x hx)
    have hsuits := ((h rf hrf).2 wf hwf).2
    exact (hfields rf hrf wf).2 hsuits x (hentries.conforms rf.name wf x hwf hx)

theorem suits_of_recordSound (h : RecordSound wfs rfs) : ∀ rf ∈ rfs, SuitsField wfs rf := by
  intro rf hrf
  refine ⟨fun hnone => ?_, fun wf hwf => ⟨fun hoptional => ?_, ?_⟩⟩
  · obtain ⟨entries, hentries, hlookup⟩ := exists_record wfs rf.name none
      (by simp [hnone]) (by simp [hnone])
    exact (h entries hentries).required rf hrf (by rw [hlookup, hnone]; rfl)
  · obtain ⟨entries, hentries, hlookup⟩ := exists_record wfs rf.name none
      (fun g hg _ => Option.some.inj (hwf.symm.trans hg) ▸ hoptional) (by simp)
    exact (h entries hentries).required rf hrf (by rw [hlookup, hwf]; rfl)
  · refine (hfields rf hrf wf).1 fun v hv => ?_
    obtain ⟨entries, hentries, hlookup⟩ := exists_record wfs rf.name (some v)
      (by simp) (fun g x hg hx => Option.some.inj (hwf.symm.trans hg) ▸ Option.some.inj hx ▸ hv)
    exact (h entries hentries).provides rf hrf v (by rw [hlookup, hwf]; rfl)

theorem recordSound_iff : RecordSound wfs rfs ↔ suitsFields wfs rfs := by
  rw [suitsFields_iff]
  exact ⟨suits_of_recordSound hfields, recordSound_of_suits hfields⟩

end Record

theorem sound_iff_suits (rf : FieldDescriptor) : ∀ wf, Sound wf rf ↔ suits wf rf := by
  induction rf using FieldDescriptor.descriptor_induction with
  | h rf hfields helement =>
    intro wf
    rw [suits_iff]
    constructor
    · intro hsound
      have hkind : wf.kind = rf.kind := by
        obtain ⟨v, hv⟩ := exists_conforms wf
        exact Option.some.inj (hv.kind_eq.symm.trans (hsound v hv).kind_eq)
      refine ⟨hkind, fun hstruct => ?_, fun hseq g hg => ?_⟩
      · refine (recordSound_iff hfields).1 fun entries hentries => ?_
        rw [← provides_struct_iff hstruct]
        exact hsound _ ((conforms_struct_iff (hkind.trans hstruct)).2 hentries)
      · cases hw : wf.element with
        | none =>
          -- a sequence without a description of its elements may hold anything
          have hnull := hsound (.seq [.null]) (.seq (hkind.trans hseq) (by simp [hw]))
          have := ((provides_seq_iff hseq).1 hnull g hg .null (by simp)).kind_eq
          exact absurd this (by simp [Value.kind?])
        | some w =>
          refine ⟨w, rfl, (helement g hg w).1 fun v hv => ?_⟩
          have hone := hsound (.seq [v]) (.seq (hkind.trans hseq) (by simp [hw, hv]))
          exact (provides_seq_iff hseq).1 hone g hg v (by simp)
    · rintro ⟨hkind, hstruct, hseq⟩ v hv
      cases hv with
      | prim hv hns hnq => exact .prim (hkind ▸ hv) (hkind ▸ hns) (hkind ▸ hnq)
      | struct hv hdeclared hrequired hconforms =>
        have hr := hkind.symm.trans hv
        exact (provides_struct_iff hr).2 <| (recordSound_iff hfields).2 (hstruct hr) _
          ⟨hdeclared, hrequired, hconforms⟩
      | seq hv helems =>
        have hr := hkind.symm.trans hv
        refine .seq hr fun g hg x hx => ?_
        obtain ⟨w, hw, hsuits⟩ := hseq hr g hg
        exact (helement g hg w).2 hsuits x (helems w hw x hx)

/-- The reader requires the field and the writer does not declare it, or they declare it with
different kinds. -/
def Mismatch (wfs : List FieldDescriptor) (rf : FieldDescriptor) : Prop :=
  match fieldMap wfs rf.name with
  | none => rf.optional = false
  | some wf => wf.kind ≠ rf.kind

theorem compatible_checkFields_iff (wfs rfs : List FieldDescriptor) :
    (checkFields (fieldMap wfs) rfs).compatible = true ↔ ∀ rf ∈ rfs, ¬ Mismatch wfs rf := by
  induction rfs with
  | nil => simp [checkFields]
  | cons rf rfs ih =>
    rw [List.forall_mem_cons, ← ih, checkFields, Mismatch]
    cases fieldMap wfs rf.name with
    | none => cases rf.optional <;> simp
    | some wf => by_cases hkind : wf.kind = rf.kind <;> simp [hkind]

/-- What `CheckCompatibility` says is sound exactly if some top-level field makes it say no, or the
descriptors suit each other at every level. -/
theorem compatibility_sound_iff (writerTD readerTD : TypeDescriptor) :
    ((CheckCompatibility writerTD readerTD).compatible = true →
      ∀ entries, RecordConforms writerTD.fields entries → RecordProvides readerTD.fields entries) ↔
    (∃ rf ∈ readerTD.fields, Mismatch writerTD.fields rf) ∨
      suitsFields writerTD.fields readerTD.fields = true := by
  have hsound : RecordSound writerTD.fields readerTD.fields ↔ _ :=
    recordSound_iff fun rf _ => sound_iff_suits rf
  rw [CheckCompatibility, compatible_checkFields_iff, ← hsound, or_iff_not_imp_left]
  simp only [not_exists, not_and, RecordSound]

/-- The writer may leave out the field that the reader requires. -/
theorem optional_field_required :
    let writerTD : TypeDescriptor := ⟨str "T", 1, [.mk (str "a") .bool true [] none]⟩
    let readerTD : TypeDescriptor := ⟨str "T", 1, [.mk (str "a") .bool false [] none]⟩
    (CheckCompatibility writerTD readerTD).compatible = true ∧
      RecordConforms writerTD.fields [] ∧ ¬ RecordProvides readerTD.fields [] := by
  refine ⟨by decide, ⟨by simp, fun n g hg _ => ?_, by simp⟩, fun h => ?_⟩
  · have := (mem_of_fieldMap hg).1
    rw [List.mem_singleton.1 this]
    rfl
  · have := h.required _ (List.mem_singleton_self _) rfl
    exact absurd this (by decide)

end GoDDS.Tools.Xtypes
