import GoDDS.Arbitration

/-!
# Arbitration in any order
-/

namespace GoDDS

open ByteCodec List FixedBytes Registry

def GUID.bytes (g : GUID) : Bytes := g.guidPrefix.toBytes ++ g.entity.toBytes

/-- The mock compares identifiers as sixteen bytes, `rtps` by prefix and entity. -/
def Mock.guidLess (a b : GUID) : Bool := a.bytes < b.bytes

theorem append_lt_append_iff {p q e f : Bytes} (h : p.length = q.length) :
    p ++ e < q ++ f ↔ p < q ∨ p = q ∧ e < f := by
  induction p generalizing q with
  | nil =>
    obtain rfl := length_eq_zero_iff.1 h.symm
    simp
  | cons x p ih =>
    obtain ⟨y, q, rfl⟩ := exists_cons_of_length_eq_add_one h.symm
    rw [cons_append, cons_append, cons_lt_cons_iff, cons_lt_cons_iff,
      ih (Nat.succ.inj h), cons_eq_cons]
    tauto

theorem mock_guidLess : Mock.guidLess = guidLess := by
  funext a b
  rw [Bool.eq_iff_iff, guidLess_iff, Mock.guidLess, decide_eq_true_iff]
  have hlen : a.guidPrefix.toBytes.length = b.guidPrefix.toBytes.length := by simp
  rw [GUID.bytes, GUID.bytes, append_lt_append_iff hlen]
  exact or_congr_right (and_congr_left fun _ => ⟨ext, congrArg _⟩)

namespace OwnershipState

abbrev Strengths := Registry (Prod.fst : GUID × Int32 → GUID)

/-- The loop, over the entries in the order in which it visits them. -/
def recomputeLocked (less : GUID → GUID → Bool) (entries : List (GUID × Int32)) : GUID :=
  let best := entries.foldl (fun (best : Option (GUID × Int32)) (x : GUID × Int32) =>
    match best with
    | none => some x
    | some (g, s) => if x.2 > s ∨ (x.2 = s ∧ less x.1 g) then some x else best) none
  (best.map Prod.fst).getD zeroGUID

inductive Call where
  | register (g : GUID) (strength : Int32)
  | unregister (g : GUID)

def Call.apply (R : Strengths) : Call → Strengths
  | .register g strength => R.insert (g, strength)
  | .unregister g => R.erase g

/-- The calls can lead to the state: each of them visits the entries in some order. -/
inductive Reaches (less : GUID → GUID → Bool) : List Call → OwnershipState → Prop
  | new : Reaches less [] new
  | call {calls : List Call} {o : OwnershipState} (h : Reaches less calls o) (c : Call)
      {entries : List (GUID × Int32)} (horder : entries.Perm (c.apply o.strengths).items) :
      Reaches less (calls ++ [c]) ⟨c.apply o.strengths, recomputeLocked less entries⟩

def Call.enter (t : Table GUID Int32) : Call → Table GUID Int32
  | .register g strength => t.set g strength
  | .unregister g => t.erase g

def strengthOf (calls : List Call) : Table GUID Int32 := calls.foldl Call.enter Table.empty

/-- The writer is registered and the strongest, the one with the smallest identifier among
equals. -/
def Strongest (t : Table GUID Int32) (g : GUID) : Prop :=
  ∃ s, t g = some s ∧
    ∀ w s', t w = some s' → w ≠ g → s' < s ∨ s' = s ∧ g.bytes < w.bytes

variable {calls : List Call} {o m : OwnershipState} {less : GUID → GUID → Bool}

theorem recompute_perm {R Q : Strengths} (h : Q.items.Perm R.items) :
    recompute Q = recompute R := by
  by_cases hne : R.items = []
  · have hne' : Q.items = [] := List.Perm.eq_nil (hne ▸ h)
    unfold recompute
    rw [hne, hne']
  · rw [recompute_eq_iff fun hnil => hne (List.Perm.eq_nil (hnil ▸ h.symm))]
    obtain ⟨x, hx, hg, hfirst⟩ := (recompute_eq_iff hne).1 rfl
    exact ⟨x, h.mem_iff.2 hx, hg, fun y hy => hfirst y (h.mem_iff.1 hy)⟩

theorem Reaches.settled (h : Reaches guidLess calls o) : o.Settled := by
  cases h with
  | new => rfl
  | call h c horder =>
    have hnodup := ((horder.map Prod.fst).nodup_iff).2 (c.apply _).nodup
    exact recompute_perm (Q := ⟨_, hnodup⟩) horder

theorem Reaches.mem_iff (h : Reaches less calls o) (w : GUID) (s : Int32) :
    (w, s) ∈ o.strengths.items ↔ strengthOf calls w = some s := by
  induction h with
  | new => simp [OwnershipState.new, empty, strengthOf, Table.empty]
  | @call calls o h c _ horder ih =>
    rw [strengthOf, foldl_append]
    change (w, s) ∈ (c.apply o.strengths).items ↔ c.enter (strengthOf calls) w = some s
    cases c with
    | register g strength =>
      rw [Call.apply, Call.enter, mem_insert, ih, Prod.mk.injEq, Table.set_eq_some]
      exact or_congr (and_congr_right fun _ => eq_comm) and_comm
    | unregister g =>
      rw [Call.apply, Call.enter, erase, items_filter, mem_filter,
        decide_eq_true_iff, ih, Table.erase_eq_some, and_comm]

theorem Reaches.allows_iff (h : Reaches guidLess calls o) (g : GUID) : o.allows g = true ↔
      (∀ w, strengthOf calls w = none) ∨ Strongest (strengthOf calls) g := by
  rw [OwnershipState.allows_iff h.settled, or_iff_not_imp_left]
  have hnil : o.strengths.items ≠ [] ↔ ¬ ∀ w, strengthOf calls w = none := by
    rw [not_iff_not, eq_nil_iff_forall_not_mem]
    constructor
    · exact fun hnone w => Option.eq_none_iff_forall_ne_some.2 fun s hs =>
        hnone (w, s) ((h.mem_iff w s).2 hs)
    · rintro hnone ⟨w, s⟩ hmem
      have := (h.mem_iff w s).1 hmem
      rw [hnone w] at this
      cases this
  rw [hnil]
  refine imp_congr_right fun _ => ⟨?_, ?_⟩
  · rintro ⟨⟨g, s⟩, hx, rfl, hfirst⟩
    refine ⟨s, (h.mem_iff g s).1 hx, fun w s' hw hne => ?_⟩
    have hrank := hfirst (w, s') ((h.mem_iff w s').2 hw) fun heq => hne (congrArg Prod.fst heq)
    rwa [Precedes, ← mock_guidLess, Mock.guidLess, decide_eq_true_iff, eq_comm] at hrank
  · rintro ⟨s, hs, hfirst⟩
    refine ⟨(g, s), (h.mem_iff g s).2 hs, rfl, ?_⟩
    rintro ⟨w, s'⟩ hy hne
    have hw := (h.mem_iff w s').1 hy
    have hrank := hfirst w s' hw fun heq => hne ?_
    · rwa [Precedes, ← mock_guidLess, Mock.guidLess, decide_eq_true_iff, eq_comm]
    · subst heq
      rw [Option.some.inj (hw.symm.trans hs)]

/-- After any calls of `register` and `unregister`, whatever the orders, both let a writer through
if none is registered or it is the strongest, the smallest among equals. -/
theorem ownership_iff (ho : Reaches guidLess calls o) (hm : Reaches Mock.guidLess calls m)
    (g : GUID) : (o.allows g = true ↔
      (∀ w, strengthOf calls w = none) ∨ Strongest (strengthOf calls) g) ∧
        m.allows g = o.allows g := by
  rw [mock_guidLess] at hm
  refine ⟨ho.allows_iff g, ?_⟩
  rw [Bool.eq_iff_iff, ho.allows_iff, hm.allows_iff]

theorem ownership_takeover :
    let g : GUID := ⟨copy 12 [1], copy 4 []⟩
    let calls : List Call := [.register zeroGUID 1, .register g 2]
    ∃ o m, Reaches guidLess calls o ∧ Reaches Mock.guidLess calls m ∧ m.allows g = true := by
  intro g calls
  have ho : Reaches guidLess calls _ :=
    (Reaches.new.call (.register zeroGUID 1) .rfl).call (.register g 2) .rfl
  have hm : Reaches Mock.guidLess calls _ :=
    (Reaches.new.call (.register zeroGUID 1) .rfl).call (.register g 2) .rfl
  refine ⟨_, _, ho, hm, (ownership_iff ho hm g).2.trans ?_⟩
  decide +kernel

end OwnershipState

end GoDDS
