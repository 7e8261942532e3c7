import GoDDS.Lib.Run
import GoDDS.Tools.Xtypes.Descriptor

/-!
# Dynamic data

`Set` stores a value under a declared name, and `FromJSON` decodes the members of an object in the
order of a map and stores those under declared names. Neither looks at the kind of the field.
-/

namespace GoDDS.Tools.Xtypes

open ByteCodec Go List Prod Option

/-! ## JSON -/

/-- A JSON text, with its numbers as they are written. -/
inductive Json where
  | null
  | bool (b : Bool)
  | number (literal : Str)
  | string (s : Str)
  | array (items : List Json)
  | object (members : List (Str × Json))

/-- What is given of `encoding/json`: the structure of a text, and the number of a literal, if
any. -/
structure Decoding where
  parse : Bytes → Option Json
  toFloat : Str → Option UInt64

namespace Json

variable (dec : Decoding)

mutual

/-- `json.Unmarshal` into a variable of type `any`. -/
def decode : Json → Option Value
  | null => some .null
  | bool b => some (.bool b)
  | number literal => (dec.toFloat literal).map .float64
  | string s => some (.string s)
  | array items => (decodeItems items).map .seq
  | object members => (decodeMembers members).map .struct

def decodeItems : List Json → Option (List Value)
  | [] => some []
  | j :: js => (decode j).bind fun v => (decodeItems js).map (v :: ·)

def decodeMembers : List (Str × Json) → Option (List (Str × Value))
  | [] => some []
  | (n, j) :: ms => (decode j).bind fun v => (decodeMembers ms).map (· ++ [(n, v)])

end

local instance : LawfulBEq Str := inferInstance

def lastMembers : List (Str × Json) → List (Str × Json)
  | [] => []
  | m :: ms => if m.1 ∈ ms.map Prod.fst then lastMembers ms else m :: lastMembers ms

/-- `json.Unmarshal` into a map from names to members: an object, or `null`, which leaves the map
empty. -/
def unmarshalMap : Json → Option (List (Str × Json))
  | object members => some (lastMembers members)
  | null => some []
  | _ => none

theorem lastMembers_sublist (ms : List (Str × Json)) : (lastMembers ms).Sublist ms := by
  induction ms with
  | nil => exact List.Sublist.slnil
  | cons m ms ih =>
    rw [lastMembers]
    split_ifs
    · exact ih.cons m
    · exact ih.cons_cons m

theorem nodup_lastMembers (ms : List (Str × Json)) : ((lastMembers ms).map fst).Nodup := by
  induction ms with
  | nil => exact nodup_nil
  | cons m ms ih =>
    rw [lastMembers]
    split_ifs with h
    · exact ih
    · rw [map_cons, nodup_cons]
      exact ⟨fun hm => h (((lastMembers_sublist ms).map fst).subset hm), ih⟩

theorem nodup_unmarshalMap {j : Json} {raw : List (Str × Json)} (h : j.unmarshalMap = some raw) :
    (raw.map fst).Nodup := by
  cases j with
  | object members =>
    rw [← some.inj h]
    exact nodup_lastMembers members
  | null =>
    rw [← some.inj h]
    exact nodup_nil
  | _ => cases h

end Json

structure MapOrder where
  visit : List (Str × Json) → List (Str × Json)
  perm : ∀ raw, (visit raw).Perm raw

/-! ## The data -/

inductive DataError where
  | unknownField (name type : Str)
  | json
  | field (name : Str)

structure DynamicData where
  typeDesc : TypeDescriptor
  fields : Table Str Value

def hasField (name : Str) (fields : List FieldDescriptor) : Bool := fields.any fun f => f.name = name

namespace DynamicData

def new (td : TypeDescriptor) : DynamicData := { typeDesc := td, fields := Table.empty }

def store (d : DynamicData) (name : Str) (value : Value) : DynamicData :=
  { d with fields := d.fields.set name value }

def set (d : DynamicData) (name : Str) (value : Value) : DynamicData × Option DataError :=
  if hasField name d.typeDesc.fields then (d.store name value, none)
  else (d, some (.unknownField name d.typeDesc.name))

def storeMembers (dec : Decoding) (d : DynamicData) :
    List (Str × Json) → DynamicData × Option DataError
  | [] => (d, none)
  | (k, j) :: ms =>
    if !hasField k d.typeDesc.fields then storeMembers dec d ms
    else
      match j.decode dec with
      | none => (d, some (.field k))
      | some v => storeMembers dec (d.store k v) ms

def fromJSON (dec : Decoding) (d : DynamicData) (order : MapOrder) (data : Bytes) :
    DynamicData × Option DataError :=
  match (dec.parse data).bind Json.unmarshalMap with
  | none => (d, some .json)
  | some raw => d.storeMembers dec (order.visit raw)

end DynamicData

inductive Call where
  | set (name : Str) (value : Value)
  | fromJSON (order : MapOrder) (data : Bytes)

namespace DynamicData

def step (dec : Decoding) (d : DynamicData) : Call → DynamicData × List DataError
  | .set name value => ((d.set name value).1, (d.set name value).2.toList)
  | .fromJSON order data => ((d.fromJSON dec order data).1, (d.fromJSON dec order data).2.toList)

def Conforming (d : DynamicData) : Prop :=
  ∀ n v, d.fields n = some v → ∃ f, fieldMap d.typeDesc.fields n = some f ∧ Conforms f v

/-- The call leaves only values that conform, and if it is a `FromJSON` that fails, it leaves all as
it was. -/
def Validated (dec : Decoding) (d : DynamicData) (c : Call) : Prop :=
  (d.step dec c).1.Conforming ∧
    match c with
    | .set _ _ => True
    | .fromJSON order data =>
      (d.fromJSON dec order data).2 ≠ none → (d.fromJSON dec order data).1.fields = d.fields

/-! ## What a call stores -/

/-- The members stored: those under declared names before the first that cannot be decoded. -/
def stored (dec : Decoding) (fields : List FieldDescriptor) :
    List (Str × Json) → List (Str × Value)
  | [] => []
  | (k, j) :: ms =>
    if !hasField k fields then stored dec fields ms
    else
      match j.decode dec with
      | none => []
      | some v => (k, v) :: stored dec fields ms

def Undecodable (dec : Decoding) (fields : List FieldDescriptor) (ms : List (Str × Json)) : Prop :=
  ∃ m ∈ ms, hasField m.1 fields = true ∧ m.2.decode dec = none

theorem fieldMap_isSome (n : Str) (fields : List FieldDescriptor) :
    (fieldMap fields n).isSome = hasField n fields := by
  induction fields with
  | nil => rfl
  | cons f fields ih =>
    rw [fieldMap_cons, isSome_or, ih, hasField, hasField, any_cons, Bool.or_comm]
    by_cases hn : n = f.name
    · simp [hn]
    · simp [hn, Ne.symm hn]

variable {dec : Decoding} {d : DynamicData}

theorem storeMembers_eq (dec : Decoding) (d : DynamicData) (ms : List (Str × Json)) :
    (d.storeMembers dec ms).1 =
      { d with fields := d.fields.setAll (stored dec d.typeDesc.fields ms) } := by
  induction ms generalizing d with
  | nil => rfl
  | cons m ms ih =>
    obtain ⟨k, j⟩ := m
    rw [storeMembers, stored]
    split_ifs with hfield
    · exact ih d
    · cases j.decode dec with
      | none => rfl
      | some v => exact ih (d.store k v)

theorem storeMembers_error (dec : Decoding) (d : DynamicData) (ms : List (Str × Json)) :
    (d.storeMembers dec ms).2 ≠ none ↔ Undecodable dec d.typeDesc.fields ms := by
  unfold Undecodable
  induction ms generalizing d with
  | nil => simp [storeMembers]
  | cons m ms ih =>
    obtain ⟨k, j⟩ := m
    rw [storeMembers, exists_mem_cons_iff]
    by_cases hfield : hasField k d.typeDesc.fields
    · cases hj : j.decode dec with
      | none => simp [hfield]
      | some v =>
        have hrest := ih (d.store k v)
        simp only [hfield, Bool.not_true, Bool.false_eq_true, if_false, reduceCtorEq, and_false,
          false_or]
        exact hrest
    · have hrest := ih d
      simp only [hfield, Bool.not_false, if_true, Bool.false_eq_true, false_and, false_or]
      exact hrest

theorem stored_sublist (fields : List FieldDescriptor) (ms : List (Str × Json)) :
    ((stored dec fields ms).map fst).Sublist (ms.map fst) := by
  induction ms with
  | nil => exact List.Sublist.slnil
  | cons m ms ih =>
    obtain ⟨k, j⟩ := m
    rw [stored]
    split_ifs
    · exact ih.cons k
    · cases j.decode dec with
      | none => exact nil_sublist _
      | some v => exact ih.cons_cons k

theorem hasField_of_stored {fields : List FieldDescriptor} {ms : List (Str × Json)} {e : Str × Value}
    (h : e ∈ stored dec fields ms) : hasField e.1 fields := by
  induction ms with
  | nil => simp [stored] at h
  | cons m ms ih =>
    obtain ⟨k, j⟩ := m
    rw [stored] at h
    split_ifs at h with hfield
    · exact ih h
    · cases hj : j.decode dec with
      | none => simp [hj] at h
      | some v =>
        rw [hj] at h
        rcases mem_cons.1 h with rfl | h
        · simpa using hfield
        · exact ih h

theorem nodup_stored (dec : Decoding) {raw : List (Str × Json)} (hraw : (raw.map fst).Nodup)
    (order : MapOrder) (fields : List FieldDescriptor) :
    ((stored dec fields (order.visit raw)).map fst).Nodup :=
  (((order.perm raw).map fst).nodup_iff.2 hraw).sublist (stored_sublist fields _)

/-! ## Admissible calls -/

def Suitable (fields : List FieldDescriptor) (entries : List (Str × Value)) : Prop :=
  ∀ e ∈ entries, ∀ f, fieldMap fields e.1 = some f → Conforms f e.2

theorem conforming_setAll (hd : d.Conforming) {entries : List (Str × Value)}
    (hnodup : (entries.map fst).Nodup) (hdeclared : ∀ e ∈ entries, hasField e.1 d.typeDesc.fields) :
    Conforming { d with fields := d.fields.setAll entries } ↔
      Suitable d.typeDesc.fields entries := by
  constructor
  · intro h e he f hf
    obtain ⟨g, hg, hconf⟩ := h e.1 e.2 (Table.setAll_of_mem hnodup he d.fields)
    exact some.inj (hg.symm.trans hf) ▸ hconf
  · intro h n v hv
    rcases (Table.setAll_eq_some hnodup).1 hv with he | ⟨-, hold⟩
    · have hsome := hdeclared _ he
      rw [← fieldMap_isSome] at hsome
      obtain ⟨f, hf⟩ := isSome_iff_exists.1 hsome
      exact ⟨f, hf, h _ he f hf⟩
    · exact hd n v hold

/-- What a `Set` or `FromJSON` stores conforms to its field; if it fails, it is there already. -/
def Admissible (dec : Decoding) (d : DynamicData) : Call → Prop
  | .set name value => Suitable d.typeDesc.fields [(name, value)]
  | .fromJSON order data => ∀ raw, (dec.parse data).bind Json.unmarshalMap = some raw →
      (¬ Undecodable dec d.typeDesc.fields (order.visit raw) →
        Suitable d.typeDesc.fields (stored dec d.typeDesc.fields (order.visit raw))) ∧
      (Undecodable dec d.typeDesc.fields (order.visit raw) →
        ∀ e ∈ stored dec d.typeDesc.fields (order.visit raw), d.fields e.1 = some e.2)

theorem validated_set_iff (hd : d.Conforming) (name : Str) (value : Value) :
    d.Validated dec (.set name value) ↔ d.Admissible dec (.set name value) := by
  unfold Validated Admissible
  rw [and_iff_left trivial, step, set]
  by_cases hfield : hasField name d.typeDesc.fields
  · rw [if_pos hfield]
    have hdeclared : ∀ e ∈ [(name, value)], hasField e.1 d.typeDesc.fields := by
      simpa using hfield
    exact conforming_setAll hd (by simp) hdeclared
  · rw [if_neg hfield]
    refine iff_of_true hd fun e he f hf => ?_
    rw [mem_singleton.1 he] at hf
    rw [← fieldMap_isSome, hf] at hfield
    exact absurd rfl hfield

theorem validated_fromJSON_iff (hd : d.Conforming) (order : MapOrder) (data : Bytes) :
    d.Validated dec (.fromJSON order data) ↔ d.Admissible dec (.fromJSON order data) := by
  unfold Validated Admissible
  dsimp only [step]
  unfold fromJSON
  cases hraw : (dec.parse data).bind Json.unmarshalMap with
  | none => exact iff_of_true ⟨hd, fun _ => rfl⟩ (by simp)
  | some raw =>
    obtain ⟨j, -, hj⟩ := bind_eq_some_iff.1 hraw
    have hnodup := nodup_stored dec (Json.nodup_unmarshalMap hj) order d.typeDesc.fields
    have hconforming := conforming_setAll hd hnodup fun e he => hasField_of_stored he
    have hsame := Table.setAll_eq_self_iff hnodup (t := d.fields)
    have herror := storeMembers_error dec d (order.visit raw)
    dsimp only
    rw [storeMembers_eq, hconforming, herror, hsame]
    simp only [some.injEq, forall_eq']
    by_cases hbad : Undecodable dec d.typeDesc.fields (order.visit raw)
    · simp only [hbad, not_true, false_implies, true_implies, true_and, and_iff_right_iff_imp]
      -- what is there already conforms
      intro hthere e he f hf
      obtain ⟨g, hg, hconf⟩ := hd e.1 e.2 (hthere e he)
      exact some.inj (hg.symm.trans hf) ▸ hconf
    · simp only [hbad, not_false_eq_true, true_implies, false_implies, and_true]

/-- In a run of `Set` and `FromJSON` all stored values conform to their fields, and a `FromJSON`
that fails changes nothing, exactly if every value stored conforms, and every member that a failing
`FromJSON` visits before the one it fails at is already there. -/
theorem validated_and_atomic_iff (dec : Decoding) (td : TypeDescriptor) (calls : List Call) :
    Run.Along (fun _ d c => d.Validated dec c) (step dec) [] (new td) calls ↔
      Run.Along (fun _ d c => d.Admissible dec c) (step dec) [] (new td) calls := by
  refine Run.along_congr_of_invariant (I := Conforming) (fun _ _ _ _ h => h.1)
    (fun _ d c hd => ?_) [] (fun n v h => by simp [new] at h) calls
  cases c with
  | set name value => exact validated_set_iff hd name value
  | fromJSON order data => exact validated_fromJSON_iff hd order data

/-- `Set` stores a text in a field of numbers. `FromJSON` stores the first of two numbers and
returns an error for the second. -/
theorem text_stored_and_half_decoded :
    let td : TypeDescriptor := ⟨str "T", 1,
      [.mk (str "a") .float64 false [] none, .mk (str "b") .float64 false [] none]⟩
    let data := str "\x7b\"a\":1,\"b\":1e999\x7d"
    let dec : Decoding :=
      { parse := fun text => if text = data then some (.object [(str "a", .number (str "1")),
          (str "b", .number (str "1e999"))]) else none
        toFloat := fun s => if s = str "1e999" then none else some 0x3FF0000000000000 }
    let asWritten : MapOrder := ⟨id, fun _ => .refl _⟩
    (¬ ((new td).set (str "a") (.string (str "x"))).1.Conforming) ∧
      ((new td).fromJSON dec asWritten data).2 = some (.field (str "b")) ∧
      (new td).fields (str "a") = none ∧
      ((new td).fromJSON dec asWritten data).1.fields (str "a") =
        some (.float64 0x3FF0000000000000) := by
  intro td data dec asWritten
  refine ⟨fun h => ?_, rfl, rfl, rfl⟩
  obtain ⟨f, hf, hconf⟩ := h (str "a") (.string (str "x")) rfl
  have hkind : f.kind = .float64 := by
    have hmem := (mem_of_fieldMap hf).1
    rcases mem_cons.1 hmem with rfl | hmem
    · rfl
    · rw [mem_singleton.1 hmem]
      rfl
  have := hconf.kind_eq
  rw [hkind] at this
  exact absurd this (by simp [Value.kind?])

end DynamicData

end GoDDS.Tools.Xtypes
