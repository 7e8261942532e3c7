import GoDDS.Lib.Go
import GoDDS.Lib.Registry

/-!
# Type descriptors and their values

The descriptors of `xtypes.go`.
-/

namespace GoDDS.Tools.Xtypes

open ByteCodec Go List Option

inductive TypeKind where
  | bool
  | int32
  | int64
  | float64
  | string
  | bytes
  | struct
  | seq
  deriving DecidableEq

inductive FieldDescriptor where
  | mk (name : Str) (kind : TypeKind) (optional : Bool) (fields : List FieldDescriptor)
      (element : Option FieldDescriptor)

namespace FieldDescriptor

def name : FieldDescriptor → Str
  | mk name _ _ _ _ => name

def kind : FieldDescriptor → TypeKind
  | mk _ kind _ _ _ => kind

def optional : FieldDescriptor → Bool
  | mk _ _ optional _ _ => optional

def fields : FieldDescriptor → List FieldDescriptor
  | mk _ _ _ fields _ => fields

def element : FieldDescriptor → Option FieldDescriptor
  | mk _ _ _ _ element => element

section Projections

variable (n : Str) (k : TypeKind) (o : Bool) (fs : List FieldDescriptor) (e : Option FieldDescriptor)

@[simp] theorem kind_mk : (mk n k o fs e).kind = k := rfl

@[simp] theorem fields_mk : (mk n k o fs e).fields = fs := rfl

@[simp] theorem element_mk : (mk n k o fs e).element = e := rfl

end Projections

theorem sizeOf_lt_of_mem_fields {f g : FieldDescriptor} (h : g ∈ f.fields) :
    sizeOf g < sizeOf f := by
  cases f
  have := sizeOf_lt_of_mem h
  simp only [fields, mk.sizeOf_spec] at this ⊢
  omega

theorem sizeOf_lt_of_mem_element {f g : FieldDescriptor} (h : g ∈ f.element) :
    sizeOf g < sizeOf f := by
  cases f with
  | mk name kind optional fields element =>
    obtain rfl : element = some g := h
    simp only [mk.sizeOf_spec, some.sizeOf_spec]
    omega

theorem descriptor_induction {P : FieldDescriptor → Prop}
    (h : ∀ f : FieldDescriptor, (∀ g ∈ f.fields, P g) → (∀ g ∈ f.element, P g) → P f)
    (f : FieldDescriptor) : P f :=
  h f (fun g _ => descriptor_induction h g) fun g _ => descriptor_induction h g
termination_by sizeOf f
decreasing_by
  · exact sizeOf_lt_of_mem_fields ‹_›
  · exact sizeOf_lt_of_mem_element ‹_›

end FieldDescriptor

structure TypeDescriptor where
  name : Str
  version : UInt32
  fields : List FieldDescriptor

/-- Of several fields of one name the last one is found. -/
def fieldMap (fields : List FieldDescriptor) : Table Str FieldDescriptor :=
  fields.foldl (fun m f => m.set f.name f) Table.empty

variable (fields : List FieldDescriptor)

theorem foldl_fieldMap (m : Table Str FieldDescriptor) (n : Str) :
    fields.foldl (fun m f => m.set f.name f) m n = (fieldMap fields n).or (m n) := by
  unfold fieldMap
  induction fields generalizing m with
  | nil => rfl
  | cons f fields ih =>
    rw [foldl_cons, foldl_cons, ih, ih (Table.empty.set f.name f), Option.or_assoc]
    by_cases hn : n = f.name
    · simp [hn]
    · simp [Table.set_ne _ _ hn]

theorem fieldMap_cons (f : FieldDescriptor) (fields : List FieldDescriptor) (n : Str) :
    fieldMap (f :: fields) n = (fieldMap fields n).or (if n = f.name then some f else none) := by
  rw [fieldMap, foldl_cons, foldl_fieldMap]
  by_cases hn : n = f.name
  · simp [hn]
  · simp [hn, Table.set_ne _ _ hn]

theorem mem_of_fieldMap {fields : List FieldDescriptor} {n : Str} {f : FieldDescriptor}
    (h : fieldMap fields n = some f) : f ∈ fields ∧ f.name = n := by
  induction fields with
  | nil => simp [fieldMap] at h
  | cons g fields ih =>
    rw [fieldMap_cons, or_eq_some_iff] at h
    rcases h with h | ⟨-, h⟩
    · exact ⟨mem_cons_of_mem g (ih h).1, (ih h).2⟩
    · split_ifs at h with hn
      obtain rfl := some.inj h
      exact ⟨mem_cons_self, hn.symm⟩

/-! ## Values -/

/-- A Go value of type `any`, as far as kinds tell values apart. `null` is nil, `other` any other
type. -/
inductive Value where
  | null
  | bool (b : Bool)
  | int32 (i : Int32)
  | int64 (i : Int64)
  | float64 (bits : UInt64)
  | string (s : Str)
  | bytes (b : Bytes)
  | struct (entries : List (Str × Value))
  | seq (elems : List Value)
  | other (type : Str)

def Value.kind? : Value → Option TypeKind
  | null => none
  | bool _ => some .bool
  | int32 _ => some .int32
  | int64 _ => some .int64
  | float64 _ => some .float64
  | string _ => some .string
  | bytes _ => some .bytes
  | struct _ => some .struct
  | seq _ => some .seq
  | other _ => none

inductive Conforms : FieldDescriptor → Value → Prop
  | prim {f : FieldDescriptor} {v : Value} (hkind : v.kind? = some f.kind) (hstruct : f.kind ≠ .struct)
      (hseq : f.kind ≠ .seq) : Conforms f v
  | struct {f : FieldDescriptor} {entries : List (Str × Value)} (hkind : f.kind = .struct)
      (declared : ∀ n x, entries.lookup n = some x → (fieldMap f.fields n).isSome)
      (required : ∀ n g, fieldMap f.fields n = some g → entries.lookup n = none → g.optional = true)
      (fields : ∀ n g x, fieldMap f.fields n = some g → entries.lookup n = some x → Conforms g x) :
      Conforms f (.struct entries)
  | seq {f : FieldDescriptor} {elems : List Value} (hkind : f.kind = .seq)
      (elements : ∀ g ∈ f.element, ∀ x ∈ elems, Conforms g x) : Conforms f (.seq elems)

structure RecordConforms (fields : List FieldDescriptor) (entries : List (Str × Value)) : Prop where
  declared : ∀ n x, entries.lookup n = some x → (fieldMap fields n).isSome
  required : ∀ n g, fieldMap fields n = some g → entries.lookup n = none → g.optional = true
  conforms : ∀ n g x, fieldMap fields n = some g → entries.lookup n = some x → Conforms g x

theorem conforms_struct_iff {f : FieldDescriptor} (hkind : f.kind = .struct)
    {entries : List (Str × Value)} :
    Conforms f (.struct entries) ↔ RecordConforms f.fields entries := by
  constructor
  · intro h
    cases h with
    | prim _ hstruct _ => exact absurd hkind hstruct
    | struct _ hdeclared hrequired hconforms => exact ⟨hdeclared, hrequired, hconforms⟩
  · intro h
    exact .struct hkind h.declared h.required h.conforms

theorem Conforms.kind_eq {f : FieldDescriptor} {v : Value} (h : Conforms f v) :
    v.kind? = some f.kind := by
  cases h with
  | prim hkind _ _ => exact hkind
  | struct hkind _ _ _ => rw [hkind]; rfl
  | seq hkind _ => rw [hkind]; rfl

/-! ## Building values -/

def entriesOf (fields : List FieldDescriptor) (contents : Str → Option Value) : List (Str × Value) :=
  fields.filterMap fun f => (contents f.name).map fun x => (f.name, x)

theorem lookup_entriesOf (contents : Str → Option Value) (n : Str) :
    (entriesOf fields contents).lookup n = (fieldMap fields n).bind fun _ => contents n := by
  induction fields with
  | nil => rfl
  | cons f fields ih =>
    have hrest : ((fieldMap fields n).or (if n = f.name then some f else none)).bind
        (fun _ => contents n) = if n = f.name then contents n else
          (entriesOf fields contents).lookup n := by
      rw [ih]
      by_cases hn : n = f.name
      · cases fieldMap fields n <;> simp [hn]
      · simp [hn]
    rw [fieldMap_cons, hrest]
    unfold entriesOf
    cases hc : contents f.name with
    | none =>
      rw [filterMap_cons_none (by rw [hc]; rfl)]
      by_cases hn : n = f.name
      · have h := ih
        rw [if_pos hn, hn, hc]
        rw [entriesOf, hn, hc] at h
        rw [h]
        cases fieldMap fields f.name <;> rfl
      · rw [if_neg hn]
    | some x =>
      rw [filterMap_cons_some (by rw [hc]; rfl), lookup_cons]
      by_cases hn : n = f.name
      · simp [hn, hc]
      · have hbeq : (n == f.name) = false := beq_eq_false_iff_ne.2 hn
        rw [hbeq, if_neg hn]

theorem recordConforms_entriesOf {fields : List FieldDescriptor} {contents : Str → Option Value}
    (hrequired : ∀ n g, fieldMap fields n = some g → contents n = none → g.optional)
    (hconforms : ∀ n g x, fieldMap fields n = some g → contents n = some x → Conforms g x) :
    RecordConforms fields (entriesOf fields contents) := by
  refine ⟨fun n x hx => ?_, fun n g hg hnone => ?_, fun n g x hg hx => ?_⟩
  · rw [lookup_entriesOf] at hx
    obtain ⟨g, hg, -⟩ := bind_eq_some_iff.1 hx
    rw [hg]
    rfl
  · rw [lookup_entriesOf, hg] at hnone
    exact hrequired n g hg hnone
  · rw [lookup_entriesOf, hg] at hx
    exact hconforms n g x hg hx

def TypeKind.zero : TypeKind → Value
  | bool => .bool false
  | int32 => .int32 0
  | int64 => .int64 0
  | float64 => .float64 0
  | string => .string []
  | bytes => .bytes []
  | struct => .struct []
  | seq => .seq []

theorem kind?_zero (k : TypeKind) : k.zero.kind? = some k := by
  cases k <;> rfl

theorem exists_conforms (f : FieldDescriptor) : ∃ v, Conforms f v := by
  induction f using FieldDescriptor.descriptor_induction with
  | h f hfields _ =>
    by_cases hseq : f.kind = .seq
    · exact ⟨.seq [], .seq hseq (by simp)⟩
    by_cases hstruct : f.kind = .struct
    · -- every field gets a value of its own
      have hsome (n : Str) : ∃ x : Option Value, ∀ g, fieldMap f.fields n = some g →
          ∃ v, x = some v ∧ Conforms g v := by
        cases hg : fieldMap f.fields n with
        | none => exact ⟨none, by simp⟩
        | some g =>
          obtain ⟨v, hv⟩ := hfields g (mem_of_fieldMap hg).1
          exact ⟨some v, fun g' hg' => ⟨v, rfl, some.inj hg' ▸ hv⟩⟩
      choose contents hcontents using hsome
      refine ⟨.struct (entriesOf f.fields contents), (conforms_struct_iff hstruct).2 <|
        recordConforms_entriesOf (fun n g hg hnone => ?_) fun n g x hg hx => ?_⟩
      · obtain ⟨v, hv, -⟩ := hcontents n g hg
        rw [hnone] at hv
        exact absurd hv (by simp)
      · obtain ⟨v, hv, hconf⟩ := hcontents n g hg
        rw [hx] at hv
        exact some.inj hv ▸ hconf
    · exact ⟨f.kind.zero, .prim (kind?_zero f.kind) hstruct hseq⟩

theorem exists_record (n : Str) (o : Option Value)
    (hrequired : ∀ g, fieldMap fields n = some g → o = none → g.optional)
    (hconforms : ∀ g x, fieldMap fields n = some g → o = some x → Conforms g x) :
    ∃ entries, RecordConforms fields entries ∧
      entries.lookup n = (fieldMap fields n).bind fun _ => o := by
  choose value hvalue using exists_conforms
  refine ⟨entriesOf fields (Function.update (fun m => (fieldMap fields m).map value) n o),
    recordConforms_entriesOf (fun m g hg hnone => ?_) (fun m g x hg hx => ?_), ?_⟩
  · by_cases hm : m = n
    · rw [hm] at hg hnone
      exact hrequired g hg (by simpa using hnone)
    · simp [hm, hg] at hnone
  · by_cases hm : m = n
    · rw [hm] at hg hx
      exact hconforms g x hg (by simpa using hx)
    · simp only [Function.update_of_ne hm, hg, map_some, some.injEq] at hx
      exact hx ▸ hvalue g
  · rw [lookup_entriesOf, Function.update_self]

end GoDDS.Tools.Xtypes
