import Mathlib.Data.List.Basic

/-!
# Slices

Go's slices.
-/

namespace Go

open List Function

structure Heap (α : Type*) where
  slot : Nat → Nat → α
  next : Nat

/-- A window of a backing array that several slices may share. -/
structure Slice where
  array : Nat
  len : Nat
  cap : Nat

/-- The capacity of a slice that has outgrown its array: at least what is needed. -/
structure Growth where
  room : (cap need : Nat) → Nat
  enough : ∀ cap need, need ≤ room cap need

def Growth.exact : Growth := ⟨fun _ need => need, fun _ need => Nat.le_refl need⟩

def Growth.doubling : Growth := ⟨fun cap need => max (2 * cap) need, fun _ _ => Nat.le_max_right _ _⟩

variable {α : Type*} {g : Growth} {h : Heap α} {s s' : Slice} {xs : List α}

variable {h' : Heap α} {a array i n : Nat}

namespace Heap

def empty [Inhabited α] : Heap α := ⟨fun _ _ => default, 0⟩

def write (h : Heap α) (array start : Nat) (xs : List α) : Heap α :=
  { h with
    slot := fun a i =>
      if a = array ∧ start ≤ i then xs[i - start]?.getD (h.slot a i) else h.slot a i }

theorem slot_write_of_ne (hne : a ≠ array) (start : Nat) (xs : List α) (i : Nat) :
    (h.write array start xs).slot a i = h.slot a i :=
  if_neg fun hw => hne hw.1

theorem slot_write_of_lt {start : Nat} (hlt : i < start) (xs : List α) (a : Nat) :
    (h.write array start xs).slot a i = h.slot a i :=
  if_neg fun hw => absurd hw.2 (by omega)

theorem slot_write_of_ge {start : Nat} (hge : start + xs.length ≤ i) (a : Nat) :
    (h.write array start xs).slot a i = h.slot a i := by
  unfold write
  dsimp only
  split_ifs with hw
  · rw [getElem?_eq_none (by omega)]
    rfl
  · rfl

theorem slot_write_add (array start : Nat) (xs : List α) (i : Nat) :
    (h.write array start xs).slot array (start + i) = xs[i]?.getD (h.slot array (start + i)) := by
  unfold write
  dsimp only
  rw [if_pos ⟨rfl, Nat.le_add_right start i⟩, Nat.add_sub_cancel_left]

end Heap

namespace Slice

def nil : Slice := ⟨0, 0, 0⟩

def elems (h : Heap α) (s : Slice) : List α := (List.range s.len).map (h.slot s.array)

theorem length_elems (h : Heap α) (s : Slice) : (s.elems h).length = s.len := by
  rw [elems, length_map, length_range]

theorem getElem?_elems (hi : i < s.len) : (s.elems h)[i]? = some (h.slot s.array i) := by
  rw [elems, getElem?_map, getElem?_range hi]
  rfl

theorem mem_drop_elems {x : α} :
    x ∈ (s.elems h).drop n ↔ ∃ i, n ≤ i ∧ i < s.len ∧ h.slot s.array i = x := by
  rw [mem_iff_getElem?]
  constructor
  · rintro ⟨j, hj⟩
    rw [getElem?_drop] at hj
    have hlt : n + j < s.len := by
      rw [← s.length_elems h]
      exact (List.getElem?_eq_some_iff.1 hj).1
    rw [getElem?_elems hlt] at hj
    exact ⟨n + j, Nat.le_add_right n j, hlt, Option.some.inj hj⟩
  · rintro ⟨i, hle, hlt, rfl⟩
    refine ⟨i - n, ?_⟩
    rw [getElem?_drop, Nat.add_sub_cancel' hle, getElem?_elems hlt]

theorem elems_congr (hsame : ∀ i < s.len, h'.slot s.array i = h.slot s.array i) :
    s.elems h' = s.elems h :=
  map_congr_left fun i hi => hsame i (mem_range.1 hi)

theorem drop_elems_congr (hsame : ∀ i, n ≤ i → i < s.len → h'.slot s.array i = h.slot s.array i) :
    (s.elems h').drop n = (s.elems h).drop n := by
  refine ext_getElem? fun j => ?_
  rw [getElem?_drop, getElem?_drop]
  by_cases hj : n + j < s.len
  · rw [getElem?_elems hj, getElem?_elems hj, hsame (n + j) (Nat.le_add_right n j) hj]
  · rw [getElem?_eq_none, getElem?_eq_none] <;> rw [length_elems] <;> omega

theorem elems_take (hn : n ≤ s.len) :
    ({ s with len := n } : Slice).elems h = (s.elems h).take n := by
  rw [elems, elems, ← map_take, take_range, Nat.min_eq_left hn]

/-- Appending within the capacity writes into the shared array, and appending beyond it moves to an
array of its own. -/
def append (g : Growth) (h : Heap α) (s : Slice) (xs : List α) : Heap α × Slice :=
  if s.len + xs.length ≤ s.cap then
    (h.write s.array s.len xs, { s with len := s.len + xs.length })
  else
    ({ h.write h.next 0 (s.elems h ++ xs) with next := h.next + 1 },
      ⟨h.next, s.len + xs.length, g.room s.cap (s.len + xs.length)⟩)

theorem len_append (g : Growth) (h : Heap α) (s : Slice) (xs : List α) :
    (s.append g h xs).2.len = s.len + xs.length := by
  unfold append
  split_ifs <;> rfl

theorem elems_append (g : Growth) (h : Heap α) (s : Slice) (xs : List α) :
    (s.append g h xs).2.elems (s.append g h xs).1 = s.elems h ++ xs := by
  refine ext_getElem? fun i => ?_
  have hlen := s.len_append g h xs
  by_cases hi : i < s.len + xs.length
  swap
  · rw [getElem?_eq_none, getElem?_eq_none]
    · rw [length_append, length_elems]
      omega
    · rw [length_elems, hlen]
      omega
  rw [getElem?_elems (hlen.symm ▸ hi)]
  unfold append
  split_ifs with hfits
  · by_cases hold : i < s.len
    · rw [Heap.slot_write_of_lt hold, getElem?_append_left (by rw [length_elems]; exact hold),
        getElem?_elems hold]
    · obtain ⟨j, rfl⟩ := Nat.exists_eq_add_of_le (Nat.le_of_not_lt hold)
      have hj : j < xs.length := by omega
      rw [Heap.slot_write_add, getElem?_append_right (by rw [length_elems]; omega),
        length_elems, Nat.add_sub_cancel_left, getElem?_eq_getElem hj]
      rfl
  · have hj : i < (s.elems h ++ xs).length := by
      rw [length_append, length_elems]
      exact hi
    have hslot := h.slot_write_add h.next 0 (s.elems h ++ xs) i
    rw [Nat.zero_add, getElem?_eq_getElem hj] at hslot
    rw [getElem?_eq_getElem hj]
    exact congrArg some hslot

theorem len_le_cap_append (g : Growth) (h : Heap α) (s : Slice) (xs : List α) :
    (s.append g h xs).2.len ≤ (s.append g h xs).2.cap := by
  unfold append
  split_ifs with hfits
  · exact hfits
  · exact g.enough _ _

theorem append_array (g : Growth) (h : Heap α) (s : Slice) (xs : List α) :
    ((s.append g h xs).2.array = s.array ∧ (s.append g h xs).2.cap = s.cap ∧
        (s.append g h xs).1.next = h.next ∧ s.len + xs.length ≤ s.cap) ∨
      ((s.append g h xs).2.array = h.next ∧ (s.append g h xs).1.next = h.next + 1 ∧
        s.cap < s.len + xs.length) := by
  unfold append
  split_ifs with hfits
  · exact .inl ⟨rfl, rfl, rfl, hfits⟩
  · exact .inr ⟨rfl, rfl, by omega⟩

theorem next_le_append (g : Growth) (h : Heap α) (s : Slice) (xs : List α) :
    h.next ≤ (s.append g h xs).1.next := by
  rcases s.append_array g h xs with ⟨-, -, hn, -⟩ | ⟨-, hn, -⟩ <;> omega

def Allocated (h : Heap α) (s : Slice) : Prop := s.cap ≠ 0 → s.array < h.next

theorem allocated_nil : nil.Allocated h := fun hc => absurd rfl hc

theorem Allocated.mono (hs : s.Allocated h) (hle : h.next ≤ h'.next) : s.Allocated h' :=
  fun hc => Nat.lt_of_lt_of_le (hs hc) hle

theorem Allocated.append (hs : s.Allocated h) (g : Growth) (xs : List α) :
    (s.append g h xs).2.Allocated (s.append g h xs).1 := by
  unfold Allocated
  rcases s.append_array g h xs with ⟨ha, hc, hn, -⟩ | ⟨ha, hn, -⟩
  · rw [ha, hc, hn]
    exact hs
  · rw [ha, hn]
    exact fun _ => Nat.lt_succ_self _

theorem slot_append (ha : a < h.next)
    (hout : a = s.array → s.len + xs.length ≤ s.cap → s.len ≤ i → s.len + xs.length ≤ i) :
    (s.append g h xs).1.slot a i = h.slot a i := by
  unfold append
  split_ifs with hfits
  · by_cases harr : a = s.array
    · by_cases hi : i < s.len
      · exact Heap.slot_write_of_lt hi xs a
      · exact Heap.slot_write_of_ge (hout harr hfits (by omega)) a
    · exact Heap.slot_write_of_ne harr s.len xs i
  · exact Heap.slot_write_of_ne (by omega) 0 _ i

theorem slot_append_cases (g : Growth) (s : Slice) (xs : List α) (ha : a < h.next) (i : Nat) :
    (s.append g h xs).1.slot a i = h.slot a i ∨ (s.append g h xs).1.slot a i ∈ xs := by
  by_cases hin : a = s.array ∧ s.len + xs.length ≤ s.cap ∧ s.len ≤ i ∧ i < s.len + xs.length
  · obtain ⟨rfl, hfits, hge, hlt⟩ := hin
    obtain ⟨j, rfl⟩ := Nat.exists_eq_add_of_le hge
    have hj : j < xs.length := by omega
    refine .inr ?_
    rw [append, if_pos hfits, Heap.slot_write_add, getElem?_eq_getElem hj]
    exact getElem_mem hj
  · refine .inl (slot_append ha fun harr hfits hge => ?_)
    by_contra hlt
    exact hin ⟨harr, hfits, hge, by omega⟩

def removeAt (g : Growth) (h : Heap α) (s : Slice) (i : Nat) : Heap α × Slice :=
  append g h { s with len := i } ((s.elems h).drop (i + 1))

theorem elems_removeAt (g : Growth) (h : Heap α) (hi : i < s.len) :
    (s.removeAt g h i).2.elems (s.removeAt g h i).1 = (s.elems h).eraseIdx i := by
  rw [removeAt, elems_append, elems_take (Nat.le_of_lt hi), eraseIdx_eq_take_drop_succ]

def clone (h : Heap α) (s : Slice) : Heap α × Slice := nil.append .exact h (s.elems h)

theorem elems_clone (h : Heap α) (s : Slice) : (s.clone h).2.elems (s.clone h).1 = s.elems h :=
  elems_append .exact h nil (s.elems h)

end Slice

/-! ## Maps of slices -/

variable {κ : Type*} {subs : κ → Slice}

/-- The slices of a map are within their arrays, which no two of them share. -/
structure Laid (h : Heap α) (subs : κ → Slice) : Prop where
  bound : ∀ k, (subs k).len ≤ (subs k).cap
  allocated : ∀ k, (subs k).Allocated h
  apart : ∀ k k', k ≠ k' → (subs k).cap ≠ 0 → (subs k').cap ≠ 0 → (subs k).array ≠ (subs k').array

theorem Laid.cap_ne_zero (hl : Laid h subs) {k : κ} (hlen : (subs k).len ≠ 0) :
    (subs k).cap ≠ 0 := by
  have := hl.bound k
  omega

/-- Storing the result of an append under its own key leaves the other slices alone. -/
theorem Laid.put [DecidableEq κ] (hl : Laid h subs) {k : κ} (harray : s.array = (subs k).array)
    (hcap : s.cap = (subs k).cap) (g : Growth) (xs : List α) :
    Laid (s.append g h xs).1 (Function.update subs k (s.append g h xs).2) := by
  have hnext := s.next_le_append g h xs
  constructor
  · intro k'
    rcases eq_or_ne k' k with rfl | hne
    · rw [update_self]
      exact s.len_le_cap_append g h xs
    · rw [update_of_ne hne]
      exact hl.bound k'
  · intro k'
    rcases eq_or_ne k' k with rfl | hne
    · rw [update_self]
      refine Slice.Allocated.append ?_ g xs
      unfold Slice.Allocated
      rw [harray, hcap]
      exact hl.allocated k'
    · rw [update_of_ne hne]
      exact (hl.allocated k').mono hnext
  · have hself : ∀ k', k' ≠ k → (s.append g h xs).2.cap ≠ 0 → (subs k').cap ≠ 0 →
        (s.append g h xs).2.array ≠ (subs k').array := by
      intro k' hne
      rcases s.append_array g h xs with ⟨ha, hc, -⟩ | ⟨ha, -⟩
      · rw [ha, hc, harray, hcap]
        exact hl.apart k k' hne.symm
      · rw [ha]
        exact fun _ hc => (Nat.ne_of_lt (hl.allocated k' hc)).symm
    intro k₁ k₂ hne
    rcases eq_or_ne k₁ k with rfl | h₁
    · rw [update_self, update_of_ne hne.symm]
      exact hself k₂ hne.symm
    · rw [update_of_ne h₁]
      rcases eq_or_ne k₂ k with rfl | h₂
      · rw [update_self]
        exact fun hc₁ hc₂ => (hself k₁ h₁ hc₂ hc₁).symm
      · rw [update_of_ne h₂]
        exact hl.apart k₁ k₂ hne

theorem Laid.elems_put (hl : Laid h subs) {k k' : κ} (harray : s.array = (subs k).array)
    (hcap : s.cap = (subs k).cap) (hne : k' ≠ k) (g : Growth) (xs : List α) :
    (subs k').elems (s.append g h xs).1 = (subs k').elems h := by
  refine Slice.elems_congr fun i hi => ?_
  have hc := hl.cap_ne_zero (k := k') (by omega)
  refine Slice.slot_append (hl.allocated k' hc) fun heq hfits hge => ?_
  -- in place, so the array is the one of `k`, which `k'` does not share
  by_contra hlt
  exact hl.apart k' k hne hc (by omega) (heq.trans harray)

/-- The slice does not end before one of the map's in the same array does. -/
def Beyond (subs : κ → Slice) (s : Slice) : Prop :=
  s.cap ≠ 0 → ∀ k, (subs k).cap ≠ 0 → (subs k).array = s.array → (subs k).len ≤ s.len

theorem Laid.beyond_self (hl : Laid h subs) (k : κ) : Beyond subs (subs k) := by
  intro hc k' hc' harray
  rcases eq_or_ne k' k with rfl | hne
  · exact Nat.le_refl _
  · exact absurd harray (hl.apart k' k hne hc' hc)

theorem beyond_nil : Beyond subs Slice.nil := fun hc => absurd rfl hc

theorem Laid.append (hl : Laid h subs) (g : Growth) (s : Slice) (xs : List α) :
    Laid (s.append g h xs).1 subs :=
  ⟨hl.bound, fun k => (hl.allocated k).mono (s.next_le_append g h xs), hl.apart⟩

theorem Beyond.append (hl : Laid h subs) (hb : Beyond subs s) (g : Growth) (xs : List α) :
    Beyond subs (s.append g h xs).2 := by
  intro hc k hck harray
  have hlen := s.len_append g h xs
  rcases s.append_array g h xs with ⟨ha, hcap, -⟩ | ⟨ha, -⟩
  · have := hb (hcap ▸ hc) k hck (harray.trans ha)
    omega
  · exact absurd (harray.trans ha) (Nat.ne_of_lt (hl.allocated k hck))

theorem Laid.elems_append (hl : Laid h subs) (hb : Beyond subs s) (g : Growth) (xs : List α) (k : κ) :
    (subs k).elems (s.append g h xs).1 = (subs k).elems h := by
  refine Slice.elems_congr fun i hi => ?_
  have hck := hl.cap_ne_zero (k := k) (by omega)
  refine Slice.slot_append (hl.allocated k hck) fun harray hfits hge => ?_
  by_cases hc : s.cap = 0
  · omega
  · have := hb hc k hck harray
    omega

end Go
