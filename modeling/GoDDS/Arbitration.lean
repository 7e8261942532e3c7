import Mathlib.Data.Finset.Insert
import GoDDS.Policy

/-!
# Ownership arbitration

The arbitration of `qos_enforce.go`, which both backends have: a table of the exclusive publishers
of each topic with their strengths, and for each topic the one in charge.
-/

namespace GoDDS

open Go List Registry ByteCodec.FixedBytes

variable {opened : Finset Publisher} {a b g : GUID} {o : OwnershipState} {x : Publisher}
  {topic : Str} {t : Table Str OwnershipState}

theorem guidLess_iff : guidLess a b ↔ a.guidPrefix.toBytes < b.guidPrefix.toBytes ∨
      a.guidPrefix = b.guidPrefix ∧ a.entity.toBytes < b.entity.toBytes := by
  unfold guidLess
  by_cases h : a.guidPrefix = b.guidPrefix
  · simp [h]
  · simp [h]

theorem guidLess_irrefl : ¬ guidLess a a := by
  simp [guidLess_iff]

theorem guidLess_trans {c : GUID} (h : guidLess a b) (h' : guidLess b c) : guidLess a c := by
  rw [guidLess_iff] at *
  rcases h with h | ⟨heq, h⟩
  · rcases h' with h' | ⟨heq', -⟩
    · exact .inl (List.lt_trans h h')
    · exact .inl (heq' ▸ h)
  · rcases h' with h' | ⟨heq', h'⟩
    · exact .inl (heq ▸ h')
    · exact .inr ⟨heq.trans heq', List.lt_trans h h'⟩

theorem guidLess_total (h : ¬ guidLess a b) (h' : ¬ guidLess b a) : a = b := by
  obtain ⟨pa, ea⟩ := a
  obtain ⟨pb, eb⟩ := b
  simp only [guidLess_iff, not_or, not_and] at h h'
  obtain rfl : pa = pb := ext (List.le_antisymm h'.1 h.1)
  obtain rfl : ea = eb := ext (List.le_antisymm (h'.2 rfl) (h.2 rfl))
  rfl

def Precedes (x y : GUID × Int32) : Prop := x.2 > y.2 ∨ x.2 = y.2 ∧ guidLess x.1 y.1 = true
  deriving Decidable

theorem precedes_irrefl : Std.Irrefl Precedes := by
  refine ⟨fun x h => ?_⟩
  rcases h with h | h
  · exact Int32.lt_irrefl h
  · exact guidLess_irrefl h.2

theorem precedes_trans : IsTrans (GUID × Int32) Precedes := by
  refine ⟨fun x y z h h' => ?_⟩
  rcases h with h | ⟨heq, h⟩
  · rcases h' with h' | ⟨heq', -⟩
    · exact .inl (Int32.lt_trans h' h)
    · exact .inl (heq' ▸ h)
  · rcases h' with h' | ⟨heq', h'⟩
    · exact .inl (heq ▸ h')
    · exact .inr ⟨heq.trans heq', guidLess_trans h h'⟩

theorem precedes_total {x y : GUID × Int32} (h : ¬ Precedes x y) (h' : ¬ Precedes y x) : x = y := by
  simp only [Precedes, not_or, not_and] at h h'
  have hstrength : x.2 = y.2 := Int32.le_antisymm (Int32.not_lt.1 h.1) (Int32.not_lt.1 h'.1)
  exact Prod.ext (guidLess_total (h.2 hstrength) (h'.2 hstrength.symm)) hstrength

/-! ## One topic -/

namespace OwnershipState

/-- The publisher in charge is the one the strengths call for. -/
def Settled (o : OwnershipState) : Prop := o.active = recompute o.strengths

theorem recompute_eq_iff {R : Registry (Prod.fst : GUID × Int32 → GUID)} (hne : R.items ≠ []) :
    recompute R = g ↔ ∃ x ∈ R.items, x.1 = g ∧ ∀ y ∈ R.items, y ≠ x → Precedes x y := by
  have hscan : recompute R =
      ((R.items.foldl (List.argAux Precedes) none).map Prod.fst).getD zeroGUID := by
    unfold recompute
    dsimp only
    congr 3
    funext best x
    cases best <;> rfl
  rw [hscan]
  cases hbest : R.items.foldl (List.argAux Precedes) none with
  | none => exact absurd ((foldl_argAux_eq_none _).1 hbest).1 hne
  | some m =>
    have hspec := fun x => foldl_argAux_eq_some precedes_irrefl precedes_trans
      (fun _ _ => precedes_total) (l := R.items) (m := x)
    rw [Option.map_some, Option.getD_some]
    constructor
    · rintro rfl
      obtain ⟨hmem, hfirst⟩ := (hspec m).1 hbest
      exact ⟨m, hmem, rfl, hfirst⟩
    · rintro ⟨x, hmem, rfl, hfirst⟩
      have hx := (hspec x).2 ⟨hmem, hfirst⟩
      rw [hbest] at hx
      rw [Option.some.inj hx]

theorem settled_new : new.Settled := rfl

theorem allows_iff (h : o.Settled) : o.allows g = true ↔ o.strengths.items ≠ [] →
      ∃ x ∈ o.strengths.items, x.1 = g ∧ ∀ y ∈ o.strengths.items, y ≠ x → Precedes x y := by
  unfold allows
  by_cases hne : o.strengths.items = []
  · simp [hne]
  · rw [if_neg (by simpa using hne), decide_eq_true_iff, h, eq_comm, recompute_eq_iff hne]
    exact ⟨fun hx _ => hx, fun hx => hx hne⟩

/-- `x` is registered and the first in rank of those that are not lost. -/
def Leads (o : OwnershipState) (lost : GUID → Prop) (x : GUID × Int32) : Prop :=
  x ∈ o.strengths.items ∧ ∀ y ∈ o.strengths.items, ¬ lost y.1 → y ≠ x → Precedes x y

/-- `x` comes before the lost ones that are still registered. -/
def Outlasts (o : OwnershipState) (lost : GUID → Prop) (x : GUID × Int32) : Prop :=
  ∀ y ∈ o.strengths.items, lost y.1 → y ≠ x → Precedes x y

instance (o : OwnershipState) (lost : GUID → Prop) [DecidablePred lost] (x : GUID × Int32) :
    Decidable (o.Leads lost x) := inferInstanceAs (Decidable (_ ∧ _))

instance (o : OwnershipState) (lost : GUID → Prop) [DecidablePred lost] (x : GUID × Int32) :
    Decidable (o.Outlasts lost x) :=
  inferInstanceAs (Decidable (∀ y ∈ o.strengths.items, lost y.1 → y ≠ x → Precedes x y))

theorem allows_iff_outlasts (h : o.Settled) {lost : GUID → Prop} {x : GUID × Int32}
    (hlead : o.Leads lost x) : o.allows x.1 = true ↔ o.Outlasts lost x := by
  obtain ⟨hmem, hfirst⟩ := hlead
  rw [allows_iff h]
  constructor
  · intro hactive y hy _ hne
    obtain ⟨z, hz, hguid, hrank⟩ := hactive (ne_nil_of_mem hmem)
    obtain rfl : z = x :=
      inj_on_of_nodup_map o.strengths.nodup hz hmem hguid
    exact hrank y hy hne
  · intro hpast _
    refine ⟨x, hmem, rfl, fun y hy hne => ?_⟩
    by_cases hlost : lost y.1
    · exact hpast y hy hlost hne
    · exact hfirst y hy hlost hne

end OwnershipState

namespace Ownership

def stateFor (t : Table Str OwnershipState) (topic : Str) : OwnershipState :=
  (t topic).getD OwnershipState.new

def enter (t : Table Str OwnershipState) (x : Publisher) : Table Str OwnershipState :=
  if x.exclusive then t.set x.topic ((stateFor t x.topic).register x.guid x.strength) else t

def leave (t : Table Str OwnershipState) (x : Publisher) : Table Str OwnershipState :=
  if x.exclusive then t.set x.topic ((stateFor t x.topic).unregister x.guid) else t

def allows (t : Table Str OwnershipState) (topic : Str) (g : GUID) : Bool :=
  match t topic with
  | none => true
  | some o => o.allows g

theorem allows_eq (t : Table Str OwnershipState) (topic : Str) (g : GUID) :
    allows t topic g = (stateFor t topic).allows g := by
  unfold allows stateFor
  cases t topic <;> rfl

def entry (x : Publisher) : GUID × Int32 := (x.guid, x.strength)

def Distinct (opened : Finset Publisher) : Prop :=
  ∀ x ∈ opened, ∀ y ∈ opened, x.guid = y.guid → x = y

def Has (topic : Str) (e : GUID × Int32) (x : Publisher) : Prop :=
  x.exclusive = true ∧ x.topic = topic ∧ entry x = e

/-- The table knows exactly the exclusive ones of the given publishers. -/
structure Arbitrates (t : Table Str OwnershipState) (opened : Finset Publisher) : Prop where
  settled : ∀ topic, (stateFor t topic).Settled
  registered : ∀ topic e, e ∈ (stateFor t topic).strengths.items ↔ ∃ x ∈ opened, Has topic e x

open OwnershipState

theorem arbitrates_empty : Arbitrates Table.empty ∅ :=
  ⟨fun _ => settled_new, fun _ _ => by
    simp [stateFor, new, empty]⟩

theorem stateFor_set (topic topic' : Str) (o : OwnershipState) :
    stateFor (t.set topic o) topic' = if topic' = topic then o else stateFor t topic' := by
  unfold stateFor
  split_ifs with h
  · rw [h, Table.set_self]
    rfl
  · rw [Table.set_ne t o h]

theorem settled_set (h : ∀ topic, (stateFor t topic).Settled) (ho : o.Settled) (topic' : Str) :
    (stateFor (t.set topic o) topic').Settled := by
  rw [stateFor_set]
  split_ifs
  · exact ho
  · exact h topic'

/-! ### Who is registered -/

def Registers (t : Table Str OwnershipState) (topic : Str) (g : GUID) : Prop :=
  ∃ strength, (g, strength) ∈ (stateFor t topic).strengths.items

theorem not_registers_empty (topic : Str) (g : GUID) : ¬ Registers Table.empty topic g := by
  rintro ⟨strength, h⟩
  cases h

theorem registers_enter : Registers (enter t x) topic g ↔
      (x.exclusive ∧ x.topic = topic ∧ x.guid = g) ∨ Registers t topic g := by
  unfold enter Registers
  split_ifs with hexcl
  · rw [stateFor_set]
    split_ifs with htopic
    · subst htopic
      simp only [register, mem_insert, Prod.mk.injEq]
      constructor
      · rintro ⟨strength, ⟨rfl, rfl⟩ | ⟨hold, -⟩⟩
        · exact .inl ⟨hexcl, trivial, rfl⟩
        · exact .inr ⟨strength, hold⟩
      · rintro (⟨-, -, rfl⟩ | ⟨strength, hold⟩)
        · exact ⟨x.strength, .inl ⟨rfl, rfl⟩⟩
        · by_cases hg : g = x.guid
          · exact ⟨x.strength, .inl ⟨hg, rfl⟩⟩
          · exact ⟨strength, .inr ⟨hold, hg⟩⟩
    · rw [or_iff_right fun h => htopic h.2.1.symm]
  · rw [or_iff_right fun h => hexcl h.1]

theorem registers_leave : Registers (leave t x) topic g ↔
      Registers t topic g ∧ ¬ (x.exclusive ∧ x.topic = topic ∧ x.guid = g) := by
  unfold leave Registers
  split_ifs with hexcl
  · rw [stateFor_set]
    split_ifs with htopic
    · subst htopic
      simp only [unregister, erase, items_filter, mem_filter, decide_eq_true_iff]
      constructor
      · rintro ⟨strength, hold, hne⟩
        exact ⟨⟨strength, hold⟩, fun h => hne h.2.2.symm⟩
      · rintro ⟨⟨strength, hold⟩, hne⟩
        exact ⟨strength, hold, fun h => hne ⟨hexcl, trivial, h.symm⟩⟩
    · rw [and_iff_left fun h => htopic h.2.1.symm]
  · rw [and_iff_left fun h => hexcl h.1]

theorem registers_foldl_leave {xs : List Publisher} : Registers (xs.foldl leave t) topic g ↔
      Registers t topic g ∧ ∀ x ∈ xs, ¬ (x.exclusive ∧ x.topic = topic ∧ x.guid = g) := by
  induction xs generalizing t with
  | nil => simp
  | cons x xs ih => rw [foldl_cons, ih, registers_leave, forall_mem_cons, and_assoc]

theorem settled_enter (h : ∀ topic, (stateFor t topic).Settled) (x : Publisher) (topic : Str) :
    (stateFor (enter t x) topic).Settled := by
  unfold enter
  split_ifs
  · refine settled_set h ?_ topic
    rfl
  · exact h topic

theorem settled_leave (h : ∀ topic, (stateFor t topic).Settled) (x : Publisher) (topic : Str) :
    (stateFor (leave t x) topic).Settled := by
  unfold leave
  split_ifs
  · refine settled_set h ?_ topic
    rfl
  · exact h topic

theorem Arbitrates.enter (h : Arbitrates t opened) (hfresh : ∀ y ∈ opened, y.guid ≠ x.guid) :
    Arbitrates (Ownership.enter t x) (insert x opened) := by
  have hother : ∀ topic e, ¬ Has topic e x →
      (e ∈ (stateFor t topic).strengths.items ↔ ∃ y ∈ insert x opened, Has topic e y) := by
    intro topic e hx
    rw [h.registered, Finset.exists_mem_insert, or_iff_right hx]
  unfold Ownership.enter
  split_ifs with hexcl
  · refine ⟨settled_set h.settled rfl, fun topic e => ?_⟩
    rw [stateFor_set]
    split_ifs with htopic
    · subst htopic
      show e ∈ ((stateFor t x.topic).strengths.insert (entry x)).items ↔ _
      rw [mem_insert, Finset.exists_mem_insert, h.registered]
      constructor
      · rintro (rfl | ⟨hold, -⟩)
        · exact .inl ⟨hexcl, rfl, rfl⟩
        · exact .inr hold
      · rintro (⟨-, -, rfl⟩ | ⟨y, hy, hye⟩)
        · exact .inl rfl
        · refine .inr ⟨⟨y, hy, hye⟩, ?_⟩
          rw [← hye.2.2]
          exact hfresh y hy
    · exact hother topic e fun hx => htopic hx.2.1.symm
  · exact ⟨h.settled, fun topic e => hother topic e fun hx => hexcl hx.1⟩

theorem Arbitrates.leave (h : Arbitrates t opened) (hsame : ∀ y ∈ opened, y.guid = x.guid → y = x) :
    Arbitrates (Ownership.leave t x) (opened.filter fun y => y.guid ≠ x.guid) := by
  have hother : ∀ topic e, (∀ y ∈ opened, Has topic e y → y.guid ≠ x.guid) →
      (e ∈ (stateFor t topic).strengths.items ↔
        ∃ y ∈ opened.filter fun y => y.guid ≠ x.guid, Has topic e y) := by
    intro topic e hne
    rw [h.registered]
    constructor
    · rintro ⟨y, hy, hye⟩
      exact ⟨y, Finset.mem_filter.2 ⟨hy, hne y hy hye⟩, hye⟩
    · rintro ⟨y, hy, hye⟩
      exact ⟨y, (Finset.mem_filter.1 hy).1, hye⟩
  unfold Ownership.leave
  split_ifs with hexcl
  · refine ⟨settled_set h.settled rfl, fun topic e => ?_⟩
    rw [stateFor_set]
    split_ifs with htopic
    · subst htopic
      show e ∈ ((stateFor t x.topic).strengths.erase x.guid).items ↔ _
      rw [erase, items_filter, mem_filter, decide_eq_true_iff, h.registered]
      constructor
      · rintro ⟨⟨y, hy, hye⟩, hne⟩
        refine ⟨y, Finset.mem_filter.2 ⟨hy, ?_⟩, hye⟩
        rw [← hye.2.2] at hne
        exact hne
      · rintro ⟨y, hy, hye⟩
        obtain ⟨hy, hne⟩ := Finset.mem_filter.1 hy
        refine ⟨⟨y, hy, hye⟩, ?_⟩
        rw [← hye.2.2]
        exact hne
    · refine hother topic e fun y hy hye hguid => htopic ?_
      rw [← hye.2.1, hsame y hy hguid]
  · refine ⟨h.settled, fun topic e => hother topic e fun y hy hye hguid => hexcl ?_⟩
    rw [← hsame y hy hguid]
    exact hye.1

/-- As long as the table knows exactly the open exclusive publishers, it lets the samples of an open
publisher through exactly if no exclusive publisher of the topic is open, or it is the first in rank
of them. -/
theorem Arbitrates.allows_iff (h : Arbitrates t opened) (hdistinct : Distinct opened)
    (hx : x ∈ opened) : allows t x.topic x.guid ↔ (⟨x, opened⟩ : Publication).InCharge := by
  rw [allows_eq, OwnershipState.allows_iff (h.settled x.topic)]
  have hitems : ∀ e, e ∈ (stateFor t x.topic).strengths.items ↔
      ∃ y ∈ (⟨x, opened⟩ : Publication).contenders, entry y = e := by
    intro e
    rw [h.registered]
    constructor
    · rintro ⟨y, hy, hexcl, htopic, he⟩
      exact ⟨y, Finset.mem_filter.2 ⟨hy, hexcl, htopic⟩, he⟩
    · rintro ⟨y, hy, he⟩
      obtain ⟨hy, hexcl, htopic⟩ := Finset.mem_filter.1 hy
      exact ⟨y, hy, hexcl, htopic, he⟩
  have hne : (stateFor t x.topic).strengths.items ≠ [] ↔
      (⟨x, opened⟩ : Publication).contenders ≠ ∅ := by
    rw [← Finset.nonempty_iff_ne_empty]
    constructor
    · intro hne
      obtain ⟨e, he⟩ := exists_mem_of_ne_nil _ hne
      obtain ⟨y, hy, -⟩ := (hitems e).1 he
      exact ⟨y, hy⟩
    · rintro ⟨y, hy⟩
      exact ne_nil_of_mem ((hitems (entry y)).2 ⟨y, hy, rfl⟩)
  have hunique : ∀ y ∈ (⟨x, opened⟩ : Publication).contenders, y.guid = x.guid → y = x :=
    fun y hy => hdistinct y (Finset.mem_filter.1 hy).1 x hx
  unfold Publication.InCharge
  rw [hne]
  refine imp_congr_right fun _ => ⟨?_, ?_⟩
  · rintro ⟨e, he, hguid, hfirst⟩
    obtain ⟨y, hy, rfl⟩ := (hitems e).1 he
    obtain rfl := hunique y hy hguid
    refine ⟨hy, fun z hz hzy => hfirst (entry z) ((hitems _).2 ⟨z, hz, rfl⟩) fun heq => ?_⟩
    exact hzy (hunique z hz (congrArg Prod.fst heq))
  · rintro ⟨hmem, hfirst⟩
    refine ⟨entry x, (hitems _).2 ⟨x, hmem, rfl⟩, rfl, fun e he hne => ?_⟩
    obtain ⟨y, hy, rfl⟩ := (hitems e).1 he
    exact hfirst y hy fun heq => hne (by rw [heq])

end Ownership

end GoDDS
