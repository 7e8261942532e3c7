import Mathlib.Data.List.MinMax
import Mathlib.Data.List.Nodup

/-!
# Registries and tables

Two models of a finite map.
-/

section Best

variable {α : Type*} {r : α → α → Prop} [DecidableRel r]

theorem mem_of_foldl_argAux {l : List α} {o : Option α} {m : α}
    (h : l.foldl (List.argAux r) o = some m) : m ∈ l ∨ o = some m := by
  induction l generalizing o with
  | nil => exact Or.inr h
  | cons a l ih =>
    rcases ih h with hmem | ho
    · exact Or.inl (List.mem_cons_of_mem a hmem)
    · cases o with
      | none => exact Or.inl (Option.some.inj ho ▸ List.mem_cons_self)
      | some c =>
        simp only [List.argAux] at ho
        split_ifs at ho
        · exact Or.inl (Option.some.inj ho ▸ List.mem_cons_self)
        · exact Or.inr ho

/-- A scan of a list that keeps the best entry seen so far ends with the first one in the order,
whatever order the list is in. -/
theorem foldl_argAux_eq_some (hirrefl : Std.Irrefl r) (htrans : IsTrans α r)
    (htotal : ∀ a b, ¬ r a b → ¬ r b a → a = b) {l : List α} {m : α} :
    l.foldl (List.argAux r) none = some m ↔ m ∈ l ∧ ∀ a ∈ l, a ≠ m → r m a := by
  constructor
  · intro h
    refine ⟨(mem_of_foldl_argAux h).resolve_right (by simp), fun a ha hne => ?_⟩
    by_contra hnot
    exact hne (htotal a m (List.not_of_mem_foldl_argAux r hirrefl htrans ha h) hnot)
  · rintro ⟨hmem, hfirst⟩
    cases h : l.foldl (List.argAux r) none with
    | none => simp [(List.foldl_argAux_eq_none r).1 h] at hmem
    | some m' =>
      by_contra hne
      have hm' := (mem_of_foldl_argAux h).resolve_right (by simp)
      exact List.not_of_mem_foldl_argAux r hirrefl htrans hmem h
        (hfirst m' hm' fun heq => hne (by rw [heq]))

end Best

/-! ## Registries -/

/-- A list of records, no two of which have the same `key`. The list is the iteration order. -/
structure Registry {α κ : Type*} (key : α → κ) where
  items : List α
  nodup : (items.map key).Nodup

namespace Registry

open List

variable {α κ : Type*} {key : α → κ}

def empty : Registry key := ⟨[], List.nodup_nil⟩

def filter (R : Registry key) (q : α → Bool) : Registry key :=
  ⟨R.items.filter q, R.nodup.sublist (List.filter_sublist.map key)⟩

def map (R : Registry key) (f : α → α) (hf : ∀ x, key (f x) = key x) : Registry key :=
  ⟨R.items.map f, by
    have hkeys : (R.items.map f).map key = R.items.map key := by
      rw [List.map_map]
      exact List.map_congr_left fun x _ => hf x
    rw [hkeys]
    exact R.nodup⟩

@[simp] theorem items_map (R : Registry key) (f : α → α) (hf : ∀ x, key (f x) = key x) :
    (R.map f hf).items = R.items.map f := rfl

@[simp] theorem items_filter (R : Registry key) (q : α → Bool) :
    (R.filter q).items = R.items.filter q := rfl

variable [DecidableEq κ]

def get? (R : Registry key) (k : κ) : Option α := R.items.find? fun x => key x = k

def insert (R : Registry key) (x : α) : Registry key :=
  ⟨x :: R.items.filter fun y => key y ≠ key x, by
    rw [List.map_cons, List.nodup_cons]
    refine ⟨fun h => ?_, R.nodup.sublist (List.filter_sublist.map key)⟩
    obtain ⟨y, hy, hyx⟩ := List.mem_map.1 h
    simp [hyx] at hy⟩

def erase (R : Registry key) (k : κ) : Registry key := R.filter fun x => key x ≠ k

def modify (R : Registry key) (k : κ) (f : α → α) (hf : ∀ x, key (f x) = key x) : Registry key :=
  R.map (fun x => if key x = k then f x else x) fun x => by split_ifs <;> simp [hf]

variable {R : Registry key} {x : α} {k k' : κ}

theorem get?_eq_some : R.get? k = some x ↔ x ∈ R.items ∧ key x = k := by
  constructor
  · intro h
    exact ⟨mem_of_find?_eq_some h, by simpa using find?_some h⟩
  · rintro ⟨hx, rfl⟩
    have hsome : (R.get? (key x)).isSome := by
      rw [get?, find?_isSome]
      exact ⟨x, hx, by simp⟩
    obtain ⟨y, hy⟩ := Option.isSome_iff_exists.1 hsome
    have hmem := mem_of_find?_eq_some hy
    have hkey : key y = key x := by simpa using find?_some hy
    rw [hy, inj_on_of_nodup_map R.nodup hmem hx hkey]

theorem get?_map (R : Registry key) (f : α → α) (hf : ∀ x, key (f x) = key x) (k : κ) :
    (R.map f hf).get? k = (R.get? k).map f := by
  simp only [get?, items_map, find?_map, Function.comp_def, hf]

theorem get?_modify (R : Registry key) (k : κ) (f : α → α) (hf : ∀ x, key (f x) = key x) (k' : κ) :
    (R.modify k f hf).get? k' = (R.get? k').map fun x => if key x = k then f x else x :=
  get?_map R _ _ k'

theorem get?_modify_self {f : α → α} {hf : ∀ x, key (f x) = key x} (h : R.get? k = some x) :
    (R.modify k f hf).get? k = some (f x) := by
  rw [get?_modify, h, Option.map_some, if_pos (get?_eq_some.1 h).2]

theorem mem_insert {y : α} : y ∈ (R.insert x).items ↔ y = x ∨ y ∈ R.items ∧ key y ≠ key x := by
  simp [insert]

theorem get?_insert_self (R : Registry key) (x : α) : (R.insert x).get? (key x) = some x :=
  get?_eq_some.2 ⟨mem_insert.2 (Or.inl rfl), rfl⟩

theorem get?_insert_ne (h : k ≠ key x) : (R.insert x).get? k = R.get? k := by
  ext y
  simp only [get?_eq_some, mem_insert]
  constructor
  · rintro ⟨rfl | ⟨hy, -⟩, hk⟩
    · exact absurd hk.symm h
    · exact ⟨hy, hk⟩
  · rintro ⟨hy, rfl⟩
    exact ⟨Or.inr ⟨hy, h⟩, rfl⟩

theorem get?_insert (R : Registry key) (x : α) (k : κ) :
    (R.insert x).get? k = if k = key x then some x else R.get? k := by
  split_ifs with h
  · rw [h, get?_insert_self]
  · exact get?_insert_ne h

theorem get?_erase (R : Registry key) (k k' : κ) :
    (R.erase k).get? k' = if k' = k then none else R.get? k' := by
  ext x
  simp only [get?_eq_some, erase, items_filter, mem_filter, decide_eq_true_iff]
  split_ifs with h
  · simp only [iff_false]
    rintro ⟨⟨-, hne⟩, hk⟩
    exact hne (hk.trans h)
  · rw [get?_eq_some]
    exact ⟨fun hx => ⟨hx.1.1, hx.2⟩, fun hx => ⟨⟨hx.1, fun hk => h (hx.2.symm.trans hk)⟩, hx.2⟩⟩

/-- Of the outputs over all records those that belong to key `k` are those of its record. -/
theorem filter_flatMap {β : Type*} (R : Registry key) (f : α → List β) (q : β → Bool) (k : κ)
    (hq : ∀ x, ∀ b ∈ f x, q b ↔ key x = k) :
    (R.items.flatMap f).filter q = ((R.get? k).map f).getD [] := by
  obtain ⟨items, hnodup⟩ := R
  have hall : ∀ x, key x = k → (f x).filter q = f x := fun x hx =>
    filter_eq_self.2 fun b hb => (hq x b hb).2 hx
  have hnone : ∀ x, key x ≠ k → (f x).filter q = [] := fun x hx =>
    filter_eq_nil_iff.2 fun b hb h => hx ((hq x b hb).1 h)
  unfold get?
  induction items with
  | nil => rfl
  | cons x items ih =>
    rw [map_cons, nodup_cons] at hnodup
    rw [flatMap_cons, filter_append, ih hnodup.2, find?_cons]
    by_cases hx : key x = k
    · have hrest : items.find? (fun y => key y = k) = none := by
        rw [find?_eq_none]
        intro y hy hyk
        refine hnodup.1 (mem_map.2 ⟨y, hy, ?_⟩)
        rw [hx]
        simpa using hyk
      simp [hx, hall x hx, hrest]
    · simp [hx, hnone x hx]

end Registry

/-! ## Tables -/

/-- A partial function. It is only looked up and updated. -/
abbrev Table (κ β : Type*) := κ → Option β

namespace Table

variable {κ β : Type*}

def empty : Table κ β := fun _ => none

def filter (t : Table κ β) (q : β → Bool) : Table κ β := fun k => (t k).filter q

@[simp] theorem empty_apply (k : κ) : (empty : Table κ β) k = none := rfl

variable (t : Table κ β)

@[simp] theorem filter_apply (q : β → Bool) (k : κ) : t.filter q k = (t k).filter q := rfl

variable [DecidableEq κ]

def set (t : Table κ β) (k : κ) (v : β) : Table κ β := Function.update t k (some v)

def erase (t : Table κ β) (k : κ) : Table κ β := Function.update t k none

@[simp] theorem erase_self (k : κ) : t.erase k k = none := by simp [erase]

theorem erase_ne (h : k' ≠ k) : t.erase k k' = t k' := by
  simp [erase, h]

@[simp] theorem set_self (k : κ) (v : β) : t.set k v k = some v := by simp [set]

theorem set_ne (v : β) (h : k' ≠ k) : t.set k v k' = t k' := by
  simp [set, h]

theorem set_eq_some {t : Table κ β} {v x : β} :
    t.set k v k' = some x ↔ k' = k ∧ v = x ∨ k' ≠ k ∧ t k' = some x := by
  by_cases h : k' = k
  · simp [h]
  · simp [h, set_ne t v h]

theorem erase_eq_some {t : Table κ β} {x : β} : t.erase k k' = some x ↔ k' ≠ k ∧ t k' = some x := by
  by_cases h : k' = k
  · simp [h]
  · simp [h, erase_ne t h]

theorem forall_set {P : κ → β → Prop} {t : Table κ β} {v : β} (hnew : P k v)
    (hold : ∀ k' x, t k' = some x → P k' x) : ∀ k' x, t.set k v k' = some x → P k' x := by
  intro k' x hx
  by_cases hk : k' = k
  · rw [hk, set_self] at hx
    rw [hk, ← Option.some.inj hx]
    exact hnew
  · rw [set_ne t v hk] at hx
    exact hold k' x hx

def setAll (t : Table κ β) (entries : List (κ × β)) : Table κ β :=
  entries.foldl (fun t e => t.set e.1 e.2) t

theorem setAll_cons (e : κ × β) (entries : List (κ × β)) :
    t.setAll (e :: entries) = (t.set e.1 e.2).setAll entries := rfl

variable {entries : List (κ × β)}

theorem setAll_of_not_mem (h : k ∉ entries.map Prod.fst) (t : Table κ β) :
    t.setAll entries k = t k := by
  induction entries generalizing t with
  | nil => rfl
  | cons e entries ih =>
    rw [List.map_cons, List.mem_cons, not_or] at h
    rw [setAll_cons, ih h.2, set_ne t e.2 h.1]

theorem setAll_of_mem (hnodup : (entries.map Prod.fst).Nodup) {e : κ × β}
    (h : e ∈ entries) (t : Table κ β) : t.setAll entries e.1 = some e.2 := by
  induction entries generalizing t with
  | nil => simp at h
  | cons e' entries ih =>
    rw [List.map_cons, List.nodup_cons] at hnodup
    rw [setAll_cons]
    rcases List.mem_cons.1 h with rfl | h
    · rw [setAll_of_not_mem hnodup.1, set_self]
    · exact ih hnodup.2 h _

theorem setAll_eq_some (hnodup : (entries.map Prod.fst).Nodup)
    {t : Table κ β} {x : β} :
    t.setAll entries k = some x ↔ (k, x) ∈ entries ∨ k ∉ entries.map Prod.fst ∧ t k = some x := by
  by_cases hk : k ∈ entries.map Prod.fst
  · obtain ⟨⟨k, y⟩, he, rfl⟩ := List.mem_map.1 hk
    rw [setAll_of_mem hnodup he]
    constructor
    · intro hy
      exact Or.inl (Option.some.inj hy ▸ he)
    · rintro (hx | ⟨hx, -⟩)
      · exact congrArg some (congrArg Prod.snd (List.inj_on_of_nodup_map hnodup he hx rfl))
      · exact absurd hk hx
  · rw [setAll_of_not_mem hk]
    refine ⟨fun h => Or.inr ⟨hk, h⟩, ?_⟩
    rintro (hx | ⟨-, hx⟩)
    · exact absurd (List.mem_map_of_mem hx) hk
    · exact hx

theorem setAll_eq_self_iff (hnodup : (entries.map Prod.fst).Nodup)
    {t : Table κ β} : t.setAll entries = t ↔ ∀ e ∈ entries, t e.1 = some e.2 := by
  constructor
  · intro h e he
    rw [← h]
    exact setAll_of_mem hnodup he t
  · intro h
    funext k
    by_cases hk : k ∈ entries.map Prod.fst
    · obtain ⟨e, he, rfl⟩ := List.mem_map.1 hk
      rw [setAll_of_mem hnodup he, h e he]
    · exact setAll_of_not_mem hk t

end Table
